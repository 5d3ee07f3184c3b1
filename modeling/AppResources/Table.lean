import AppResources.Table.Package

/-!
# Resource tables

A table is a pool of strings and a list of packages. What a file holds besides
tables is skipped, and so is whatever broken bytes at its end are known to occur.

## Main definitions

* `Table.load`: the table in a file.
-/

namespace AppResources

/-- A loaded table. -/
structure Table where
  /-- The strings that values refer to. -/
  strings : Option StringPool := none
  /-- The packages in order. -/
  packages : List Package := []
  /-- Whether the table belongs to the system. -/
  isSystem : Bool := false

namespace Table

/-- Bytes of the least header of a table. -/
def minHeaderSize : Nat := 12

/-- A table without packages. -/
def empty : Table := {}

/-- Adds what a chunk inside a table chunk holds. The packages of the chunk so far are
counted against the number that it declares. -/
def addChunk (mode : LoadMode) (declared : UInt32) (state : Table × Nat) (c : Chunk) :
    Except LoadError (Table × Nat) :=
  let (table, seen) := state
  match c.kind with
  | .stringPool =>
    if table.strings.isSome then .ok state
    else
      match StringPool.load c.bytes with
      | .ok pool => .ok ({ table with strings := some pool }, seen)
      | .error f => .error (.stringPool f)
  | .tablePackage =>
    if declared.toNat < seen + 1 then .error (.tooManyPackages declared)
    else
      match Package.load c mode with
      | .ok package => .ok ({ table with packages := table.packages ++ [package] }, seen + 1)
      | .error e => .error e
  | _ => .ok state

/-- Adds a table chunk. -/
def addTable (mode : LoadMode) (table : Table) (c : Chunk) : Except LoadError Table :=
  if c.headerSize < minHeaderSize then .error (.header .table)
  else
    match c.frame with
    | .error f => .error (.ofFault f)
    | .ok (header, payload) =>
      match Bytes.word32? header 0 with
      | none => .error (.header .table)
      | some declared => do
        let w := walkAt payload c.payloadPosition
        let (table, _) ← w.chunks.foldlM (addChunk mode declared) (table, 0)
        match w.fatal? with
        | some f => .error (.chunk f)
        | none => return table

/-- Adds a chunk of a file; only tables count. -/
def addFileChunk (mode : LoadMode) (table : Table) (c : Chunk) : Except LoadError Table :=
  match c.kind with
  | .table => table.addTable mode c
  | _ => .ok table

/-- The table in a file. -/
def load (b : ByteArray) (mode : LoadMode) : Except LoadError Table :=
  if b.size < minHeaderSize then .error .tooSmall
  else do
    let w := walkAt b 0
    let table ← w.chunks.foldlM (addFileChunk mode) { isSystem := mode.system }
    match w.fatal? with
    | some f => .error (.chunk f)
    | none => return table

end Table

end AppResources
