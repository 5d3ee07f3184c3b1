import AppResources.Chunk
import AppResources.Config.Record
import AppResources.Table.Entry
import AppResources.Text.Number

/-!
# Variants

A variant holds the entries of one type for one configuration. Its chunk carries
a table of offsets in one of three layouts: a 32-bit offset for every entry, a
16-bit one in units of four bytes, or pairs of an index and such a 16-bit offset
for the entries that are present.

## Main definitions

* `Variant.read`: the variant in a chunk.
-/

namespace AppResources

/-- The entries of one type for one configuration. -/
structure Variant where
  /-- The id of the type. -/
  typeId : UInt8
  /-- The layout of the table of offsets. -/
  flags : UInt8
  /-- The configuration the entries are made for. -/
  config : Config
  /-- The entries by index. -/
  entries : Array (Option Entry)
  deriving DecidableEq

/-- Why a chunk holds no variant. -/
inductive VariantFault where
  /-- The id of the type is zero. -/
  | idZero
  /-- There are more entries than an id can number. -/
  | tooManyEntries
  /-- The entries start inside the table of offsets. -/
  | offsetsOverlap
  /-- The entries start behind the end. -/
  | entriesBeyondChunk
  /-- The entries start at an offset that is no multiple of four. -/
  | entriesUnaligned
  /-- An entry cannot be read. -/
  | entry (f : EntryFault)
  /-- There is no type spec for the type. -/
  | missingSpec
  /-- A read left the buffer. -/
  | fault (f : ReadFault)
  deriving DecidableEq, Repr

namespace VariantFault

/-- What is wrong. -/
def detail : VariantFault → String
  | .idZero => "invalid ID 0"
  | .tooManyEntries => "too many entries"
  | .offsetsOverlap => "entry offsets overlap actual entry data"
  | .entriesBeyondChunk => "entry offsets extend beyond chunk"
  | .entriesUnaligned => "entries start at unaligned address"
  | .entry f => f.message
  | .missingSpec => "missing type spec"
  | .fault .outOfBounds => "read past the end"
  | .fault .negative => "negative length"

end VariantFault

/-- Why a chunk of a type cannot be read: its header is too small, or its content is
wrong. -/
inductive VariantError where
  | header
  | invalid (typeId : UInt8) (f : VariantFault)
  deriving DecidableEq, Repr

namespace Variant

/-- Whether the table of offsets lists only the entries that are present. -/
def isSparse (flags : UInt8) : Bool := flags &&& 0x01 != 0

/-- Whether offsets take 16 bits. -/
def hasShortOffsets (flags : UInt8) : Bool := flags &&& 0x02 != 0

/-- Bytes of the least header: without a configuration but its size. -/
def minHeaderSize : Nat := 24

/-- Greatest number of entries. -/
def maxEntries : Nat := 65535

/-- The 32-bit offset of an absent entry. -/
def absent32 : UInt32 := 0xffffffff

/-- The 16-bit offset of an absent entry. -/
def absent16 : UInt16 := 0xffff

/-- Index of an entry and its offset from the first one, if it is present. -/
abbrev Slot := Nat × Option Nat

/-- The slots of a table. -/
def slotsAt (table : ByteArray) (flags : UInt8) : Except ReadFault (List Slot) :=
  if isSparse flags then
    (List.range (table.size / 4)).mapM fun i => do
      let index ← Bytes.word16At table (4 * i)
      let offset ← Bytes.word16At table (4 * i + 2)
      return (index.toNat, some (4 * offset.toNat))
  else if hasShortOffsets flags then
    (List.range (table.size / 2)).mapM fun i => do
      let offset ← Bytes.word16At table (2 * i)
      return (i, if offset = absent16 then none else some (4 * offset.toNat))
  else
    (List.range (table.size / 4)).mapM fun i => do
      let offset ← Bytes.word32At table (4 * i)
      return (i, if offset = absent32 then none else some offset.toNat)

/-- The number of entries that slots describe: one more than the greatest index. -/
def entryCount (slots : List Slot) : Nat :=
  slots.foldl (fun n slot => max n (slot.1 + 1)) 0

/-- Reads the entries of slots in order; of two slots with one index the last one counts. -/
def readEntries (b : ByteArray) (start : Nat) :
    List Slot → Array (Option Entry) → Except EntryFault (Array (Option Entry))
  | [], entries => .ok entries
  | (_, none) :: slots, entries => readEntries b start slots entries
  | (index, some offset) :: slots, entries =>
    match Entry.read b (offset + start) with
    | .ok entry =>
      if _hIndex : index < entries.size then
        readEntries b start slots (entries.set index (some entry))
      else .error (.fault .outOfBounds)
    | .error f => .error f

/-- The variant of a chunk with this type id, layout and entry count. -/
def readBody (c : Chunk) (typeId flags : UInt8) (count entriesStart : Nat) (config : Config) :
    Except VariantFault Variant :=
  let tableSize := (if hasShortOffsets flags then 2 else 4) * count
  if typeId = 0 then .error .idZero
  else if maxEntries < count then .error .tooManyEntries
  else if entriesStart < c.headerSize then .error .offsetsOverlap
  else
    match Bytes.minus entriesStart c.headerSize with
    | .error f => .error (.fault f)
    | .ok room =>
      if room < tableSize then .error .offsetsOverlap
      else if c.size < entriesStart then .error .entriesBeyondChunk
      else if entriesStart % 4 ≠ 0 then .error .entriesUnaligned
      else
        match Bytes.slice c.bytes c.headerSize (c.headerSize + tableSize) with
        | .error f => .error (.fault f)
        | .ok table =>
          match slotsAt table flags with
          | .error f => .error (.fault f)
          | .ok slots =>
            match readEntries c.bytes entriesStart slots
                (Array.replicate (entryCount slots) none) with
            | .error f => .error (.entry f)
            | .ok entries => .ok ⟨typeId, flags, config, entries⟩

/-- The variant in a chunk. -/
def read (c : Chunk) : Except VariantError Variant :=
  if c.headerSize < minHeaderSize then .error .header
  else
    match c.frame with
    | .error f => .error (.invalid 0 (.fault f))
    | .ok (h, _) =>
      match Bytes.byte? h 0, Bytes.byte? h 1, Bytes.word32? h 4, Bytes.word32? h 8,
        Config.read? h 12 with
      | some typeId, some flags, some count, some entriesStart, some (config, _) =>
        (readBody c typeId flags count.toNat entriesStart.toNat config).mapError (.invalid typeId)
      | _, _, _, _, _ => .error (.invalid 0 (.fault .outOfBounds))

/-- The entry at an index. -/
def entry? (v : Variant) (index : UInt16) : Option Entry :=
  match v.entries[index.toNat]? with
  | some found => found
  | none => none

theorem entry?_eq_join (v : Variant) (index : UInt16) :
    v.entry? index = v.entries[index.toNat]?.join := by
  unfold entry?
  split <;> next h => rw [h]; rfl

theorem entry?_eq_some_iff {v : Variant} {index : UInt16} {entry : Entry} :
    v.entry? index = some entry ↔ v.entries[index.toNat]? = some (some entry) := by
  rw [entry?_eq_join, Option.join_eq_some_iff]

end Variant

end AppResources
