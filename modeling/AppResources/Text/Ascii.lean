/-!
# Letter case of ASCII

Tags and qualifier words are compared and stored with the case of their ASCII
letters fixed; all other bytes and characters stay as they are.
-/

namespace AppResources.Text

/-- A byte with ASCII capitals made small. -/
def lowerByte (b : UInt8) : UInt8 :=
  if 0x41 ≤ b ∧ b ≤ 0x5a then b + 0x20 else b

/-- A byte with small ASCII letters made capital. -/
def upperByte (b : UInt8) : UInt8 :=
  if 0x61 ≤ b ∧ b ≤ 0x7a then b - 0x20 else b

/-- Whether a byte is an ASCII digit. -/
def isDigitByte (b : UInt8) : Bool :=
  0x30 ≤ b && b ≤ 0x39

/-- The bytes of characters of which all are ASCII. -/
def asciiBytes (cs : List Char) : List UInt8 :=
  cs.map fun c => UInt8.ofNat c.toNat

/-- The characters with the numbers of the bytes. -/
def latinChars (bytes : List UInt8) : List Char :=
  bytes.map fun b => Char.ofNat b.toNat

/-- Whether bytes spell a word of small ASCII letters, in either case. -/
def spells (word : String) (bytes : List UInt8) : Bool :=
  bytes.map lowerByte == asciiBytes word.toList

end AppResources.Text
