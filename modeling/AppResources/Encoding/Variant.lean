import AppResources.Encoding.Chunk
import AppResources.Table.Variant

/-!
# Writing variants

A variant is written in the layout that its flags name; the entries stand one behind
the other in the order of their indices.

## Main definitions

* `Variant.encode`: the chunk of a variant.
-/

namespace AppResources.Variant

/-- Bytes of the header of a written variant. -/
def headerSize : Nat := 20 + Config.recordSize

/-- Where each entry that is present starts, counted from the given start. -/
def offsetsFrom (start : Nat) : List (Option Entry) → List (Option Nat)
  | [] => []
  | none :: rest => none :: offsetsFrom start rest
  | some e :: rest => some start :: offsetsFrom (start + e.encode.length) rest

/-- The pairs of index and offset of the entries that are present, from an index on. -/
def sparsePairs (index : Nat) : List (Option Nat) → List UInt8
  | [] => []
  | none :: rest => sparsePairs (index + 1) rest
  | some offset :: rest =>
    Bytes.bytes16 (UInt16.ofNat index) ++ Bytes.bytes16 (UInt16.ofNat (offset / 4)) ++
      sparsePairs (index + 1) rest

/-- The 16-bit offset of an entry. -/
def shortOffset : Option Nat → List UInt8
  | some offset => Bytes.bytes16 (UInt16.ofNat (offset / 4))
  | none => Bytes.bytes16 absent16

/-- The 32-bit offset of an entry. -/
def longOffset : Option Nat → List UInt8
  | some offset => Bytes.bytes32 (UInt32.ofNat offset)
  | none => Bytes.bytes32 absent32

/-- The table of offsets in a layout. -/
def offsetTable (flags : UInt8) (offsets : List (Option Nat)) : List UInt8 :=
  if isSparse flags then sparsePairs 0 offsets
  else if hasShortOffsets flags then offsets.flatMap shortOffset
  else offsets.flatMap longOffset

/-- The number of entries that a layout lists. -/
def listedCount (flags : UInt8) (entries : List (Option Entry)) : Nat :=
  if isSparse flags then entries.countP Option.isSome else entries.length

/-- The bytes of the entries that are present. -/
def entryBytes (entries : List (Option Entry)) : List UInt8 :=
  entries.flatMap fun
    | some e => e.encode
    | none => []

/-- The chunk of a variant. -/
def encode (v : Variant) : List UInt8 :=
  let entries := v.entries.toList
  let table := Bytes.padded (offsetTable v.flags (offsetsFrom 0 entries))
  let header :=
    [v.typeId, v.flags] ++ Bytes.bytes16 0 ++
      Bytes.bytes32 (UInt32.ofNat (listedCount v.flags entries)) ++
      Bytes.bytes32 (UInt32.ofNat (headerSize + table.length)) ++ v.config.record
  Chunk.encode .tableType header (table ++ entryBytes entries)

end AppResources.Variant
