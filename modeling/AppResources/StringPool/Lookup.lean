import AppResources.StringPool
import AppResources.Text.Utf16
import AppResources.Text.Utf8

/-!
# Strings of a pool

The string at an index, and the index of a string. Every string is preceded by
its length and followed by a terminator; a string that breaks this rule counts as
missing.

Looking up an index works on the encoded strings: by bisection in the order of
UTF-16 units where the pool says it is sorted, and otherwise from the last string
back, so that the last of several equal strings is found.
-/

namespace AppResources

/-- A string of a pool, still encoded. -/
inductive RawString where
  /-- Bytes of UTF-8. -/
  | utf8 (bytes : ByteArray)
  /-- Units of UTF-16. -/
  | utf16 (units : List UInt16)

namespace RawString

/-- The units of a string, whatever its encoding. -/
def units : RawString → List UInt16
  | .utf8 bytes => Text.unitsOf (Text.decodeUtf8 bytes)
  | .utf16 units => units

/-- The text of a string. -/
def text : RawString → String
  | .utf8 bytes => Text.decodeUtf8 bytes
  | .utf16 units => Text.decodeUtf16 units

/-- Whether the string is the encoding of a text. -/
def spells : RawString → String → Bool
  | .utf8 bytes, s => bytes.data.toList = s.toUTF8.data.toList
  | .utf16 units, s => units = Text.unitsOf s

end RawString

namespace StringPool

/-- The byte at a position of the string data. -/
def stringByte? (p : StringPool) (i : Nat) : Option UInt8 :=
  if i < p.dataSize then Bytes.byte? p.data (p.stringsStart + i) else none

/-- A length in front of a UTF-8 string: one byte, or two when the first has its high
bit set. The answer is the length and the position behind it. -/
def lengthAt8? (p : StringPool) (i : Nat) : Option (Nat × Nat) := do
  let first ← p.stringByte? i
  if first.toNat < 128 then return (first.toNat, i + 1)
  else
    let second ← p.stringByte? (i + 1)
    return (first.toNat % 128 * 256 + second.toNat, i + 2)

/-- A length in front of a UTF-16 string: one unit, or two when the first has its high
bit set. Positions count units of the string data. -/
def lengthAt16? (p : StringPool) (i : Nat) : Option (Nat × Nat) := do
  let first ← Bytes.word16? p.data (p.stringsStart + 2 * i)
  if first.toNat < 32768 then return (first.toNat, i + 1)
  else
    let second ← Bytes.word16? p.data (p.stringsStart + 2 * (i + 1))
    return (first.toNat % 32768 * 65536 + second.toNat, i + 2)

/-- The UTF-8 string at a position of the string data. -/
def rawUtf8At (p : StringPool) (i : Nat) : Except ReadFault (Option RawString) := do
  Bytes.within p.data p.stringsStart (p.stringsStart + p.dataSize)
  -- the length in UTF-16 units comes first
  match (do p.lengthAt8? (← p.lengthAt8? i).2) with
  | none => return none
  | some (length, start) =>
    if p.dataSize ≤ start + length then return none
    else
      let first := p.stringsStart + start
      if (← Bytes.byteAt p.data (first + length)) ≠ 0 then return none
      else return some (.utf8 (← Bytes.slice p.data first (first + length)))

/-- The UTF-16 string at a position of the string data, counted in units. -/
def rawUtf16At (p : StringPool) (i : Nat) : Except ReadFault (Option RawString) := do
  match p.lengthAt16? i with
  | none => return none
  | some (length, start) =>
    if p.dataSize ≤ start + length then return none
    else
      match Bytes.word16? p.data (p.stringsStart + 2 * (start + length)) with
      | some 0 =>
        let first := p.stringsStart + 2 * start
        let bytes ← Bytes.slice p.data first (first + 2 * length)
        return some (.utf16 (Bytes.words16 bytes.data.toList))
      | _ => return none

/-- The encoded string at an index, if there is a well-formed one. -/
def rawAt (p : StringPool) (index : Nat) : Except ReadFault (Option RawString) :=
  if p.count ≤ index then .ok none
  else
    match Bytes.word32? p.data (p.headerSize + 4 * index) with
    | none => .ok none
    | some offset =>
      let i := offset.toNat / unitSize p.utf8
      if p.dataSize - 1 ≤ i then .ok none
      else if p.utf8 then p.rawUtf8At i
      else p.rawUtf16At i

/-- The encoded string at an index, if there is one that can be read. -/
def raw? (p : StringPool) (index : Nat) : Option RawString :=
  match p.rawAt index with
  | .ok found => found
  | .error _ => none

/-- The string at an index. -/
def string? (p : StringPool) (index : Nat) : Option String :=
  (p.raw? index).map RawString.text

/-- All strings of the pool in order. -/
def strings (p : StringPool) : List (Option String) :=
  (List.range p.count).map p.string?

/-! ## The index of a string -/

/-- The lexicographic order of units. -/
def compareUnits : List UInt16 → List UInt16 → Ordering
  | [], [] => .eq
  | [], _ :: _ => .lt
  | _ :: _, [] => .gt
  | x :: xs, y :: ys => (compare x.toNat y.toNat).then (compareUnits xs ys)

/-- How the string at an index stands to the units looked for; what cannot be read
counts as less. -/
def orderAt (p : StringPool) (needle : List UInt16) (index : Nat) : Except ReadFault Ordering := do
  match ← p.rawAt index with
  | some raw => return compareUnits raw.units needle
  | none => return .lt

/-- Bisection among the `span` indices from `low` on. -/
def bisect (p : StringPool) (needle : List UInt16) (low span : Nat) :
    Except ReadFault (Option Nat) :=
  if _hSpan : span = 0 then .ok none
  else
    let half := (span - 1) / 2
    let middle := low + half
    match p.orderAt needle middle with
    | .error f => .error f
    | .ok .eq => .ok (some middle)
    | .ok .lt => p.bisect needle (middle + 1) (span - half - 1)
    | .ok .gt => p.bisect needle low half
termination_by span
decreasing_by all_goals omega

/-- The greatest index below the bound whose string passes the test. -/
def lastBelow (p : StringPool) (test : RawString → Bool) :
    Nat → Except ReadFault (Option Nat)
  | 0 => .ok none
  | index + 1 =>
    match p.rawAt index with
    | .error f => .error f
    | .ok (some raw) => if test raw then .ok (some index) else p.lastBelow test index
    | .ok none => p.lastBelow test index

/-- The search for the index of a string, with the reads it makes. -/
def searchIndex (p : StringPool) (s : String) : Except ReadFault (Option Nat) :=
  if p.sorted then p.bisect (Text.unitsOf s) 0 p.count
  else p.lastBelow (·.spells s) p.count

/-- The index of a string. -/
def indexOf? (p : StringPool) (s : String) : Option Nat :=
  match p.searchIndex s with
  | .ok found => found
  | .error _ => none

end StringPool

end AppResources
