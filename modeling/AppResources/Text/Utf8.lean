/-!
# Bytes as UTF-8 text

Bytes that are valid UTF-8 stand for their text. Any other bytes stand for a text
too: each longest piece that could begin a character but does not end one, and
each byte that can begin none, becomes U+FFFD.

## Main results

* `decodeUtf8_toUTF8`: the bytes of a text decode to that text.
-/

namespace AppResources.Text

/-- The character that stands for undecodable input. -/
def replacement : Char := '\ufffd'

/-- A character of which the first bytes have been read. -/
structure PartialChar where
  /-- The bits read so far. -/
  bits : Nat
  /-- How many bytes are still to come. -/
  missing : Nat
  /-- The least byte that may come next. -/
  low : UInt8
  /-- The greatest byte that may come next. -/
  high : UInt8

/-- What a byte in front of a character means. -/
inductive LeadByte where
  /-- It is a character by itself. -/
  | whole (c : Char)
  /-- More bytes have to follow. -/
  | begins (p : PartialChar)
  /-- No character begins with it. -/
  | invalid

/-- Classifies a byte at the start of a character. The bounds on the second byte
leave out overlong forms, surrogates and numbers above U+10FFFF. -/
def LeadByte.of (b : UInt8) : LeadByte :=
  let bits (kept : Nat) := b.toNat % kept
  if b < 0x80 then .whole (Char.ofNat b.toNat)
  else if b < 0xc2 then .invalid
  else if b < 0xe0 then .begins ⟨bits 32, 1, 0x80, 0xbf⟩
  else if b = 0xe0 then .begins ⟨bits 16, 2, 0xa0, 0xbf⟩
  else if b = 0xed then .begins ⟨bits 16, 2, 0x80, 0x9f⟩
  else if b < 0xf0 then .begins ⟨bits 16, 2, 0x80, 0xbf⟩
  else if b = 0xf0 then .begins ⟨bits 8, 3, 0x90, 0xbf⟩
  else if b < 0xf4 then .begins ⟨bits 8, 3, 0x80, 0xbf⟩
  else if b = 0xf4 then .begins ⟨bits 8, 3, 0x80, 0x8f⟩
  else .invalid

/-- The characters of bytes, with the character begun by the bytes before them; `none`
stands for a piece that is no character. -/
def scanUtf8 : Option PartialChar → List UInt8 → List (Option Char)
  | none, [] => []
  | some _, [] => [none]
  | none, b :: rest =>
    match LeadByte.of b with
    | .whole c => some c :: scanUtf8 none rest
    | .begins p => scanUtf8 (some p) rest
    | .invalid => none :: scanUtf8 none rest
  | some p, b :: rest =>
    if p.low ≤ b ∧ b ≤ p.high then
      let bits := 64 * p.bits + b.toNat % 64
      if p.missing ≤ 1 then some (Char.ofNat bits) :: scanUtf8 none rest
      else scanUtf8 (some ⟨bits, p.missing - 1, 0x80, 0xbf⟩) rest
    else
      none ::
        match LeadByte.of b with
        | .whole c => some c :: scanUtf8 none rest
        | .begins p => scanUtf8 (some p) rest
        | .invalid => none :: scanUtf8 none rest

/-- The characters of bytes that are valid UTF-8. -/
def strictUtf8? (bytes : List UInt8) : Option (List Char) :=
  (scanUtf8 none bytes).mapM id

/-- The text that bytes stand for. -/
def decodeUtf8 (b : ByteArray) : String :=
  match String.fromUTF8? b with
  | some s => s
  | none => String.ofList ((scanUtf8 none b.data.toList).map (·.getD replacement))

/-- The bytes of a text. -/
def utf8Bytes (s : String) : List UInt8 :=
  s.toUTF8.data.toList

/-- The text of a field of fixed width: bytes up to the first zero. -/
def fixedUtf8 (bytes : List UInt8) : String :=
  decodeUtf8 (bytes.takeWhile (· ≠ 0)).toByteArray

theorem decodeUtf8_toUTF8 (s : String) : decodeUtf8 s.toUTF8 = s := by
  simp [decodeUtf8, String.fromUTF8?, String.toUTF8, s.isValidUTF8, String.fromUTF8]

end AppResources.Text
