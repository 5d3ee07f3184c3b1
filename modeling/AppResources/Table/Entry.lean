import AppResources.ResourceId
import AppResources.Value

/-!
# Entries

An entry of a table is a plain value, or a bag: a list of values under attribute
keys, with an optional parent to inherit from. Plain entries also have a compact
form of eight bytes, which is read into the same value.

## Main definitions

* `Entry.read`: the entry at an offset of a chunk.
* `Entry.encode`: the bytes of an entry.
-/

namespace AppResources

/-- One value of a bag. -/
structure BagItem where
  /-- The key: an attribute, or an ordinal. -/
  name : ResourceId
  /-- The value. -/
  value : Value
  deriving DecidableEq

/-- An entry of a table. -/
inductive Entry where
  /-- A single value. -/
  | plain (key : UInt32) (flags : UInt16) (value : Value)
  /-- A bag of values. -/
  | bag (key : UInt32) (flags : UInt16) (parent : ResourceId) (items : List BagItem)
  deriving DecidableEq

/-- Why there is no entry at some offset. -/
inductive EntryFault where
  /-- The offset is no multiple of four. -/
  | unaligned
  /-- The offset leaves no room for an entry. -/
  | beyondChunk
  /-- The size of the entry does not cover its header. -/
  | tooSmall
  /-- The entry exceeds the chunk. -/
  | tooLarge
  /-- The size of a bag does not cover its header. -/
  | bagTooSmall
  /-- The items of a bag start at an offset that is no multiple of four. -/
  | itemsUnaligned
  /-- The items of a bag exceed the chunk. -/
  | tooManyItems
  /-- No room is left for the value. -/
  | noRoomForValue
  /-- The size of the value is too small. -/
  | valueTooSmall
  /-- The value exceeds the chunk. -/
  | valueTooLarge
  /-- A read left the buffer. -/
  | fault (f : ReadFault)
  deriving DecidableEq, Repr

namespace EntryFault

/-- The message about a fault. -/
def message : EntryFault → String
  | .unaligned => "entry offset is not aligned"
  | .beyondChunk => "entry offset is beyond the chunk"
  | .tooSmall => "entry size is too small"
  | .tooLarge => "entry size is too large"
  | .bagTooSmall => "map entry size is too small"
  | .itemsUnaligned => "map entries are not aligned"
  | .tooManyItems => "too many map entries"
  | .noRoomForValue => "no room for the value"
  | .valueTooSmall => "value size is too small"
  | .valueTooLarge => "value size is too large"
  | .fault .outOfBounds => "entry is truncated"
  | .fault .negative => "entry has a negative length"

end EntryFault

namespace Entry

/-- The flag of bags. -/
def bagFlag : UInt16 := 0x0001

/-- The flag of public entries. -/
def publicFlag : UInt16 := 0x0002

/-- The flag of compact entries. -/
def compactFlag : UInt16 := 0x0008

/-- Whether a flag is set. -/
def hasFlag (flags flag : UInt16) : Bool := flags &&& flag == flag

/-- The index of the name of an entry in the key pool. -/
def key : Entry → UInt32
  | .plain key _ _ => key
  | .bag key _ _ _ => key

/-- The flags of an entry. -/
def flags : Entry → UInt16
  | .plain _ flags _ => flags
  | .bag _ flags _ _ => flags

/-- Whether an entry is a bag. -/
def isBag : Entry → Bool
  | .plain .. => false
  | .bag .. => true

/-- Bytes of the header of an entry. -/
def headerSize : Nat := 8

/-- Bytes of the header of a bag. -/
def bagHeaderSize : Nat := 16

/-- Bytes of an item of a bag. -/
def itemSize : Nat := 12

/-- The result of a read, its fault as one of the entry. -/
def checked {α : Type} (r : Except ReadFault α) : Except EntryFault α :=
  r.mapError .fault

/-- The item of a bag at a position. -/
def itemAt (b : ByteArray) (i : Nat) : Except ReadFault BagItem := do
  let name ← Bytes.word32At b i
  let value ← Value.readAt b (i + 4)
  return ⟨name, value.2⟩

/-- The items of a bag, one behind the other. -/
def itemsAt (b : ByteArray) (start count : Nat) : Except ReadFault (List BagItem) :=
  (List.range count).mapM fun i => itemAt b (start + itemSize * i)

/-- The bag whose items start at `body`. -/
def readBag (b : ByteArray) (offset body : Nat) (flags : UInt16) (key : UInt32) :
    Except EntryFault Entry := do
  if body < offset + bagHeaderSize then .error .bagTooSmall
  else
    let parent ← checked (Bytes.word32At b (offset + 8))
    let count ← checked (Bytes.word32At b (offset + 12))
    if body % 4 ≠ 0 then .error .itemsUnaligned
    else
      let room ← checked (Bytes.minus b.size body)
      if room / itemSize < count.toNat then .error .tooManyItems
      else
        checked (Bytes.within b body b.size)
        return .bag key flags parent (← checked (itemsAt b body count.toNat))

/-- The plain entry whose value starts at `body`. -/
def readPlain (b : ByteArray) (body : Nat) (flags : UInt16) (key : UInt32) :
    Except EntryFault Entry := do
  if b.size - Value.diskSize < body then .error .noRoomForValue
  else
    checked (Bytes.within b body b.size)
    let (size, value) ← checked (Value.readAt b body)
    let room ← checked (Bytes.minus b.size body)
    if size.toNat < Value.diskSize then .error .valueTooSmall
    else if room < size.toNat then .error .valueTooLarge
    else return .plain key flags value

/-- The entry at an offset of a chunk. A compact entry keeps its key where others keep
their size, the kind of its value in the upper flags and the word of its value in place
of the key. -/
def read (b : ByteArray) (offset : Nat) : Except EntryFault Entry := do
  if offset % 4 ≠ 0 then .error .unaligned
  else if b.size - headerSize < offset ∨ b.size < headerSize then .error .beyondChunk
  else
    checked (Bytes.within b offset b.size)
    let size ← checked (Bytes.word16At b offset)
    let flags ← checked (Bytes.word16At b (offset + 2))
    let key ← checked (Bytes.word32At b (offset + 4))
    if hasFlag flags compactFlag then
      return .plain (UInt32.ofNat size.toNat) (flags &&& 0x00ff)
        ⟨.ofTag (UInt8.ofNat (flags.toNat / 256)), key⟩
    else
      let room ← checked (Bytes.minus b.size offset)
      if size.toNat < headerSize then .error .tooSmall
      else if room < size.toNat then .error .tooLarge
      else if hasFlag flags bagFlag then readBag b offset (offset + size.toNat) flags key
      else readPlain b (offset + size.toNat) flags key

/-- The bytes of an entry. -/
def encode : Entry → List UInt8
  | .plain key flags value =>
    Bytes.bytes16 8 ++ Bytes.bytes16 flags ++ Bytes.bytes32 key ++ value.encode
  | .bag key flags parent items =>
    Bytes.bytes16 16 ++ Bytes.bytes16 (flags ||| bagFlag) ++ Bytes.bytes32 key ++
      Bytes.bytes32 parent ++ Bytes.bytes32 (UInt32.ofNat items.length) ++
      items.flatMap fun item => Bytes.bytes32 item.name ++ item.value.encode

end Entry

end AppResources
