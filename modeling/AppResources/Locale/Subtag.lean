import AppResources.Text.Ascii

/-!
# Packed language and region codes

Languages and regions take two bytes. Codes of two letters stand as they are.
Codes of three characters are packed into fifteen bits, five to a character
counted from `a` or `0`, under a set high bit. Two zero bytes mean "none".
-/

namespace AppResources

/-- A packed language or region. -/
structure Subtag where
  /-- The first byte; zero means that there is no code. -/
  first : UInt8
  /-- The second byte. -/
  second : UInt8
  deriving DecidableEq, Inhabited

namespace Subtag

/-- No code. -/
def none : Subtag := ⟨0, 0⟩

/-- Whether there is a code. -/
def isSet (s : Subtag) : Bool := s.first != 0

/-- The two bytes. -/
def bytes (s : Subtag) : List UInt8 := [s.first, s.second]

/-- The bytes read as a number, the first one highest. -/
def bigEndian (s : Subtag) : Nat := 256 * s.first.toNat + s.second.toNat

/-- Packs the bytes of a code. Of more than three bytes the first three count; fewer than
two are no code. -/
def pack (base : UInt8) : List UInt8 → Subtag
  | [a, b] => ⟨a, b⟩
  | a :: b :: c :: _ =>
    let one := (a - base) &&& 0x7f
    let two := (b - base) &&& 0x7f
    let three := (c - base) &&& 0x7f
    ⟨(three <<< 2) ||| (two >>> 3) ||| 0x80, (two <<< 5) ||| one⟩
  | _ => none

/-- The characters of a code. -/
def unpack (base : UInt8) (s : Subtag) : List Char :=
  if 0x80 ≤ s.first then
    let one := s.second &&& 0x1f
    let two := ((s.second &&& 0xe0) >>> 5) + ((s.first &&& 0x03) <<< 3)
    let three := (s.first &&& 0x7c) >>> 2
    Text.latinChars [one + base, two + base, three + base]
  else if s.isSet then Text.latinChars s.bytes
  else []

/-- Packs a language code; its letters count in either case. -/
def ofLanguage (code : List UInt8) : Subtag :=
  pack 0x61 (code.map Text.lowerByte)

/-- Packs a region code; its letters count in either case. -/
def ofRegion (code : List UInt8) : Subtag :=
  pack 0x30 (code.map Text.upperByte)

/-- The text of a packed language. -/
def languageText (s : Subtag) : List Char := s.unpack 0x61

/-- The text of a packed region. -/
def regionText (s : Subtag) : List Char := s.unpack 0x30

/-- Filipino, `fil`. -/
def filipino : Subtag := ⟨0xad, 0x05⟩

/-- Tagalog, `tl`. -/
def tagalog : Subtag := ⟨0x74, 0x6c⟩

/-- English, `en`. -/
def english : Subtag := ⟨0x65, 0x6e⟩

/-- The United States, `US`. -/
def unitedStates : Subtag := ⟨0x55, 0x53⟩

/-- Whether two languages serve the same readers: they are equal, or one is Tagalog and
the other Filipino. -/
def sameLanguage (a b : Subtag) : Bool :=
  a == b || (a == tagalog && b == filipino) || (a == filipino && b == tagalog)

end Subtag

end AppResources
