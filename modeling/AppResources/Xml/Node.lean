import AppResources.Chunk
import AppResources.ResourceId
import AppResources.Value

/-!
# Nodes of a document

A compiled XML document is a flat sequence of nodes: starts and ends of namespaces
and elements, and runs of text. Names are indices into the string pool of the
document.

## Main definitions

* `XmlNode.read`: the node in a chunk.
-/

namespace AppResources

/-- What every node carries. -/
structure NodeOrigin where
  /-- The line of the source file. -/
  line : UInt32
  /-- The comment in front of the node. -/
  comment : UInt32
  deriving DecidableEq, Inhabited

/-- An attribute of an element. -/
structure XmlAttribute where
  /-- The namespace of the name. -/
  space : UInt32
  /-- The name. -/
  name : UInt32
  /-- The value as it was written. -/
  rawValue : UInt32
  /-- The value. -/
  value : Value
  deriving DecidableEq

/-- The start of an element. -/
structure XmlElement where
  /-- Where the element comes from. -/
  origin : NodeOrigin
  /-- The namespace of the name. -/
  space : UInt32
  /-- The name. -/
  name : UInt32
  /-- One more than the index of the attribute `id`, or zero. -/
  idIndex : UInt16
  /-- One more than the index of the attribute `class`, or zero. -/
  classIndex : UInt16
  /-- One more than the index of the attribute `style`, or zero. -/
  styleIndex : UInt16
  /-- The attributes in order. -/
  attributes : List XmlAttribute
  deriving DecidableEq

/-- A node of a document. -/
inductive XmlNode where
  | startNamespace (origin : NodeOrigin) (shortName uri : UInt32)
  | endNamespace (origin : NodeOrigin) (shortName uri : UInt32)
  | startElement (element : XmlElement)
  | endElement (origin : NodeOrigin) (space name : UInt32)
  | text (origin : NodeOrigin) (index : UInt32) (value : Value)
  deriving DecidableEq

/-- Why bytes are no document. -/
inductive XmlFault where
  /-- The outermost chunk is no document. -/
  | notADocument
  /-- The chunks of the document are broken. -/
  | brokenChunk
  /-- There is no string pool. -/
  | noStrings
  /-- There is no element. -/
  | noElement
  /-- The header of a node does not cover the fields of every node. -/
  | nodeHeaderTooSmall
  /-- A node ends before its fields. -/
  | nodeTruncated
  /-- An element ends before its fields. -/
  | elementTruncated
  /-- The attributes of an element exceed it. -/
  | attributesPastEnd
  /-- The attributes of an element are too small. -/
  | attributeTooSmall
  /-- The chunk is no node. -/
  | unknownNode
  /-- A read left the buffer. -/
  | fault (f : ReadFault)
  deriving DecidableEq, Repr

namespace XmlFault

/-- What is wrong. -/
def detail : XmlFault → String
  | .notADocument => "root chunk is not RES_XML_TYPE"
  | .brokenChunk => "malformed chunk"
  | .noStrings => "no string pool"
  | .noElement => "no root element"
  | .nodeHeaderTooSmall => "node header size is too small"
  | .nodeTruncated => "node is truncated"
  | .elementTruncated => "element is truncated"
  | .attributesPastEnd => "attributes extend beyond the element"
  | .attributeTooSmall => "attribute size is too small"
  | .unknownNode => "unknown node type"
  | .fault .outOfBounds => "attribute is truncated"
  | .fault .negative => "negative length"

end XmlFault

/-- The index that stands for "none". -/
def noIndex : UInt32 := 0xffffffff

namespace XmlAttribute

/-- Bytes of an attribute; larger attributes carry data that is skipped. -/
def diskSize : Nat := 20

/-- The attribute at a position. -/
def readAt (b : ByteArray) (i : Nat) : Except ReadFault XmlAttribute := do
  let space ← Bytes.word32At b i
  let name ← Bytes.word32At b (i + 4)
  let rawValue ← Bytes.word32At b (i + 8)
  let value ← Value.readAt b (i + 12)
  return ⟨space, name, rawValue, value.2⟩

end XmlAttribute

namespace XmlElement

/-- Bytes of the fields of an element. -/
def fieldsSize : Nat := 20

/-- The element whose fields are at the start of a buffer. -/
def read (b : ByteArray) (origin : NodeOrigin) : Except XmlFault XmlElement :=
  match Bytes.word32? b 0, Bytes.word32? b 4, Bytes.word16? b 8, Bytes.word16? b 10,
    Bytes.word16? b 12, Bytes.word16? b 14, Bytes.word16? b 16, Bytes.word16? b 18 with
  | some space, some name, some start, some size, some count, some idIndex, some classIndex,
      some styleIndex =>
    let stop := start.toNat + size.toNat * count.toNat
    if b.size < stop then .error .attributesPastEnd
    else if 0 < count ∧ size.toNat < XmlAttribute.diskSize then .error .attributeTooSmall
    else
      let attributes := do
        Bytes.within b start.toNat stop
        (List.range count.toNat).mapM fun i =>
          XmlAttribute.readAt b (start.toNat + size.toNat * i)
      match attributes with
      | .error f => .error (.fault f)
      | .ok attributes =>
        .ok ⟨origin, space, name, idIndex, classIndex, styleIndex, attributes⟩
  | _, _, _, _, _, _, _, _ => .error .elementTruncated

end XmlElement

namespace XmlNode

/-- Bytes of the header of a node. -/
def headerSize : Nat := 16

/-- Two words at the start of a buffer. -/
def wordPair? (b : ByteArray) : Option (UInt32 × UInt32) :=
  match Bytes.word32? b 0, Bytes.word32? b 4 with
  | some first, some second => some (first, second)
  | _, _ => none

/-- Whether chunks of a kind are nodes. -/
def isNodeKind : ChunkKind → Bool
  | .xmlStartNamespace | .xmlEndNamespace | .xmlStartElement | .xmlEndElement | .xmlCdata => true
  | _ => false

/-- The node whose fields are at the start of a buffer. -/
def readFields (kind : ChunkKind) (b : ByteArray) (origin : NodeOrigin) :
    Except XmlFault XmlNode :=
  match kind with
  | .xmlStartNamespace =>
    match wordPair? b with
    | some (shortName, uri) => .ok (.startNamespace origin shortName uri)
    | none => .error .nodeTruncated
  | .xmlEndNamespace =>
    match wordPair? b with
    | some (shortName, uri) => .ok (.endNamespace origin shortName uri)
    | none => .error .nodeTruncated
  | .xmlStartElement => (XmlElement.read b origin).map .startElement
  | .xmlEndElement =>
    match wordPair? b with
    | some (space, name) => .ok (.endElement origin space name)
    | none => .error .nodeTruncated
  | .xmlCdata =>
    match Bytes.word32? b 0, Value.read? b 4 with
    | some index, some value => .ok (.text origin index value.2)
    | _, _ => .error .nodeTruncated
  | _ => .error .unknownNode

/-- The node in a chunk. -/
def read (c : Chunk) : Except XmlFault XmlNode :=
  if c.headerSize < headerSize then .error .nodeHeaderTooSmall
  else
    match c.frame with
    | .error f => .error (.fault f)
    | .ok (header, payload) =>
      match wordPair? header with
      | some (line, comment) => readFields c.kind payload ⟨line, comment⟩
      | none => .error .nodeTruncated

/-- The element that a node starts. -/
def element? : XmlNode → Option XmlElement
  | .startElement element => some element
  | _ => none

end XmlNode

end AppResources
