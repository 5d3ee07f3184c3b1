import AppResources.LoadError
import AppResources.StringPool.Lookup

/-!
# Documents

A compiled document is one chunk with a string pool, a list of resource ids for the
first strings of the pool, and the nodes in order.

## Main definitions

* `XmlDocument.load`: the document in a file.
-/

namespace AppResources

/-- A loaded document. -/
structure XmlDocument where
  /-- The strings that names and values refer to. -/
  strings : StringPool
  /-- The resource ids that names of attributes are bound to, by string index. -/
  resourceIds : Array ResourceId
  /-- The nodes in order. -/
  nodes : Array XmlNode

/-- What was found in the chunks of a document so far. -/
structure XmlContent where
  /-- The string pool. -/
  strings : Option StringPool := none
  /-- The resource ids. -/
  resourceIds : Array ResourceId := #[]
  /-- The nodes. -/
  nodes : Array XmlNode := #[]

namespace XmlContent

/-- Adds what a chunk inside a document holds. Only the first string pool counts, and
resource ids only in front of the first node; chunks of other kinds are skipped. -/
def addChunk (found : XmlContent) (c : Chunk) : Except LoadError XmlContent :=
  match c.kind with
  | .stringPool =>
    if found.strings.isSome then .ok found
    else
      match StringPool.load c.bytes with
      | .ok pool => .ok { found with strings := some pool }
      | .error f => .error (.stringPool f)
  | .xmlResourceMap =>
    if found.nodes.isEmpty then
      match c.frame with
      | .error f => .error (.ofFault f)
      | .ok (_, payload) =>
        .ok { found with resourceIds := (Bytes.words32 payload.data.toList).toArray }
    else .ok found
  | kind =>
    if XmlNode.isNodeKind kind then
      match XmlNode.read c with
      | .ok node => .ok { found with nodes := found.nodes.push node }
      | .error f => .error (.document f)
    else .ok found

end XmlContent

namespace XmlDocument

/-- The document in a chunk. -/
def ofChunk (root : Chunk) : Except LoadError XmlDocument :=
  if root.kind ≠ .xml then .error (.document .notADocument)
  else
    match root.frame with
    | .error f => .error (.ofFault f)
    | .ok (_, payload) => do
      let w := walkAt payload root.payloadPosition
      let found ← w.chunks.foldlM XmlContent.addChunk {}
      if w.fatal?.isSome then .error (.document .brokenChunk)
      else
        match found.strings with
        | none => .error (.document .noStrings)
        | some strings =>
          if found.nodes.any (·.element?.isSome) then
            return ⟨strings, found.resourceIds, found.nodes⟩
          else .error (.document .noElement)

/-- The document in a file. -/
def load (b : ByteArray) : Except LoadError XmlDocument :=
  if b.size = 0 then .error .tooSmall
  else
    match readChunk b 0 0 with
    | .ok root => ofChunk root
    | .error f => .error (.chunk f)

end XmlDocument

end AppResources
