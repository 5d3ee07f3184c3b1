import AppResources.Chunk

/-!
# String pools

A string pool is a chunk with a table of offsets, the strings in one of two
encodings, and optional spans of style. Loading checks the layout as a whole;
the strings are decoded when they are asked for (`AppResources.StringPool.Lookup`).
-/

namespace AppResources

/-- Why a chunk is no string pool. -/
inductive PoolFault where
  /-- The chunk or its header is too small for the header of a pool. -/
  | headerTooSmall
  /-- The sizes in the header exceed the chunk. -/
  | headerPastChunk
  /-- The table of string offsets exceeds the pool. -/
  | entriesPastEnd
  /-- The strings start behind the end. -/
  | stringsPastEnd
  /-- The styles start behind the end. -/
  | stylesPastEnd
  /-- The styles do not start behind the strings. -/
  | stylesBeforeStrings
  /-- There is no room for any string. -/
  | noStringData
  /-- The last string has no terminator. -/
  | unterminated
  /-- The table of style offsets exceeds the pool. -/
  | styleEntriesPastEnd
  /-- The style data cannot hold an end mark. -/
  | stylesTooSmall
  /-- The style data does not end with an end mark. -/
  | stylesUnterminated
  /-- A read left the buffer. -/
  | fault (f : ReadFault)
  deriving DecidableEq, Repr

namespace PoolFault

/-- Whether the pool has no usable header at all. -/
def isHeaderFault : PoolFault → Bool
  | .headerTooSmall => true
  | _ => false

/-- The message about a fault. -/
def message : PoolFault → String
  | .headerTooSmall => "got error while parsing string pool header"
  | .headerPastChunk => "bad string block: header extends past chunk"
  | .entriesPastEnd => "bad string block: string entries extend past data size"
  | .stringsPastEnd => "bad string block: string pool starts after total size"
  | .stylesPastEnd => "bad string block: style pool starts after total size"
  | .stylesBeforeStrings => "bad string block: style pool starts before string pool"
  | .noStringData => "bad string block: string pool is empty"
  | .unterminated => "bad string block: last string is not 0-terminated"
  | .styleEntriesPastEnd => "bad string block: style entries extend past data size"
  | .stylesTooSmall => "bad string block: style pool is too small"
  | .stylesUnterminated => "bad string block: style pool is not terminated by an end span"
  | .fault .outOfBounds => "bad string block: read past the end"
  | .fault .negative => "bad string block: negative length"

end PoolFault

/-- A checked pool whose strings are still encoded. -/
structure StringPool where
  /-- Number of strings. -/
  count : Nat
  /-- Number of strings that carry styles. -/
  styleCount : Nat
  /-- Whether the strings are UTF-8; otherwise they are UTF-16. -/
  utf8 : Bool
  /-- Whether the pool claims that its strings ascend. -/
  sorted : Bool
  /-- Where the table of offsets starts. -/
  headerSize : Nat
  /-- Where the strings start. -/
  stringsStart : Nat
  /-- The whole pool, header included. -/
  data : ByteArray
  /-- Size of the string data: bytes for UTF-8, units for UTF-16. -/
  dataSize : Nat

namespace StringPool

/-- Bytes of the header of a pool. -/
def minHeaderSize : Nat := 28

/-- Bytes of one unit of text. -/
def unitSize (utf8 : Bool) : Nat := if utf8 then 1 else 2

/-- The result of a read, its fault as one of the pool. -/
def checked {α : Type} (r : Except ReadFault α) : Except PoolFault α :=
  r.mapError .fault

/-- Refuses with a fault where a condition holds. -/
def refuseIf (condition : Bool) (f : PoolFault) : Except PoolFault Unit :=
  if condition then .error f else .ok ()

/-- The size of the string data of a pool with strings, after the checks on it. -/
def stringDataSize (data : ByteArray) (utf8 : Bool)
    (count styleCount headerSize stringsStart stylesStart : Nat) : Except PoolFault Nat := do
  let size := data.size
  refuseIf (size < 4 * count + headerSize) .entriesPastEnd
  -- a length and a terminator must fit at least
  let lastStart ← checked (Bytes.minus size 2)
  refuseIf (lastStart ≤ stringsStart) .stringsPastEnd
  let stringBytes ←
    if styleCount = 0 then checked (Bytes.minus size stringsStart)
    else do
      refuseIf (lastStart ≤ stylesStart) .stylesPastEnd
      refuseIf (stylesStart ≤ stringsStart) .stylesBeforeStrings
      checked (Bytes.minus stylesStart stringsStart)
  let units := stringBytes / unitSize utf8
  refuseIf (units = 0) .noStringData
  let last := stringsStart + (units - 1) * unitSize utf8
  let terminator ← checked (Bytes.slice data last (last + unitSize utf8))
  refuseIf (terminator.data.any (· ≠ 0)) .unterminated
  return units

/-- The checks on the style data of a pool with styles: the data ends with the mark
that ends the last span. -/
def checkStyles (data : ByteArray) (count styleCount headerSize stylesStart : Nat) :
    Except PoolFault Unit := do
  let size := data.size
  refuseIf (size < 4 * (count + styleCount) + headerSize) .styleEntriesPastEnd
  refuseIf (size ≤ stylesStart) .stylesPastEnd
  let words := (← checked (Bytes.minus size stylesStart)) / 4
  refuseIf (words < 3) .stylesTooSmall
  let stop := stylesStart + 4 * words
  let start ← checked (Bytes.minus stop 12)
  let mark ← checked (Bytes.slice data start stop)
  refuseIf (mark.data.any (· ≠ 0xff)) .stylesUnterminated

/-- Checks the pool at the start of a chunk. -/
def load (chunk : ByteArray) : Except PoolFault StringPool :=
  match Bytes.word16? chunk 2, Bytes.word32? chunk 4, Bytes.word32? chunk 8,
    Bytes.word32? chunk 12, Bytes.word32? chunk 16, Bytes.word32? chunk 20,
    Bytes.word32? chunk 24 with
  | some headerSize, some size, some count, some styleCount, some flags, some stringsStart,
      some stylesStart => do
    refuseIf (headerSize.toNat < minHeaderSize) .headerTooSmall
    refuseIf (size.toNat < headerSize.toNat || chunk.size < size.toNat) .headerPastChunk
    let data ← checked (Bytes.slice chunk 0 size.toNat)
    let utf8 := flags.toNat / 256 % 2 == 1
    let dataSize ←
      if count = 0 then pure 0
      else
        stringDataSize data utf8 count.toNat styleCount.toNat headerSize.toNat
          stringsStart.toNat stylesStart.toNat
    if styleCount ≠ 0 then
      checkStyles data count.toNat styleCount.toNat headerSize.toNat stylesStart.toNat
    return {
      count := count.toNat
      styleCount := styleCount.toNat
      utf8 := utf8
      sorted := flags.toNat % 2 == 1
      headerSize := headerSize.toNat
      stringsStart := stringsStart.toNat
      data := data
      dataSize := dataSize }
  | _, _, _, _, _, _, _ => .error .headerTooSmall

end StringPool

end AppResources
