import AppResources.Bytes
import AppResources.Text.Utf8

/-!
# UTF-16 code units

A text as 16-bit units, and units as a text. A surrogate without its partner
becomes U+FFFD.

## Main results

* `decodeUtf16_unitsOf`: the units of a text decode to that text.
-/

namespace AppResources.Text

/-- The units of one character. -/
def charUnits (c : Char) : List UInt16 :=
  if c.toNat < 0x10000 then [UInt16.ofNat c.toNat]
  else
    [UInt16.ofNat (0xd800 + (c.toNat - 0x10000) / 0x400),
      UInt16.ofNat (0xdc00 + (c.toNat - 0x10000) % 0x400)]

/-- The units of a text. -/
def unitsOf (s : String) : List UInt16 :=
  s.toList.flatMap charUnits

/-- The characters that units stand for. -/
def decodeUnits : List UInt16 → List Char
  | [] => []
  | [u] => if u < 0xd800 ∨ 0xe000 ≤ u then [Char.ofNat u.toNat] else [replacement]
  | u :: v :: rest =>
    if u < 0xd800 ∨ 0xe000 ≤ u then Char.ofNat u.toNat :: decodeUnits (v :: rest)
    else if u < 0xdc00 ∧ 0xdc00 ≤ v ∧ v < 0xe000 then
      Char.ofNat (0x10000 + 0x400 * (u.toNat - 0xd800) + (v.toNat - 0xdc00)) :: decodeUnits rest
    else replacement :: decodeUnits (v :: rest)

/-- The text that units stand for. -/
def decodeUtf16 (units : List UInt16) : String :=
  String.ofList (decodeUnits units)

/-- The text of a field of fixed width: units up to the first zero. -/
def fixedUtf16 (bytes : List UInt8) : String :=
  decodeUtf16 ((Bytes.words16 bytes).takeWhile (· ≠ 0))

/-- No character is a surrogate. -/
theorem not_surrogate (c : Char) : c.toNat < 0xd800 ∨ 0xe000 ≤ c.toNat := by
  have h := c.valid
  simp only [UInt32.isValidChar, Nat.isValidChar] at h
  change c.val.toNat < 0xd800 ∨ 0xe000 ≤ c.val.toNat
  omega

theorem code_lt (c : Char) : c.toNat < 0x110000 := by
  have h := c.valid
  simp only [UInt32.isValidChar, Nat.isValidChar] at h
  change c.val.toNat < 0x110000
  omega

/-- A character has one unit, which is no surrogate, or a pair of surrogates. -/
theorem charUnits_cases (c : Char) :
    (∃ u, charUnits c = [u] ∧ (u < 0xd800 ∨ 0xe000 ≤ u) ∧ u.toNat = c.toNat) ∨
      ∃ u v, charUnits c = [u, v] ∧ ¬ (u < 0xd800 ∨ 0xe000 ≤ u) ∧
        (u < 0xdc00 ∧ 0xdc00 ≤ v ∧ v < 0xe000) ∧
        0x10000 + 0x400 * (u.toNat - 0xd800) + (v.toNat - 0xdc00) = c.toNat := by
  have hRange := not_surrogate c
  have hMax := code_lt c
  have hd8 : (0xd800 : UInt16).toNat = 0xd800 := rfl
  have hdc : (0xdc00 : UInt16).toNat = 0xdc00 := rfl
  have he0 : (0xe000 : UInt16).toNat = 0xe000 := rfl
  simp only [charUnits, UInt16.lt_iff_toNat_lt, UInt16.le_iff_toNat_le, hd8, hdc, he0]
  by_cases hBmp : c.toNat < 0x10000
  · have hNat : (UInt16.ofNat c.toNat).toNat = c.toNat := by
      rw [UInt16.toNat_ofNat']; omega
    refine .inl ⟨_, if_pos hBmp, ?_, hNat⟩
    rw [hNat]
    exact hRange
  · have hHigh : (UInt16.ofNat (0xd800 + (c.toNat - 0x10000) / 0x400)).toNat =
        0xd800 + (c.toNat - 0x10000) / 0x400 := by
      rw [UInt16.toNat_ofNat']; omega
    have hLow : (UInt16.ofNat (0xdc00 + (c.toNat - 0x10000) % 0x400)).toNat =
        0xdc00 + (c.toNat - 0x10000) % 0x400 := by
      rw [UInt16.toNat_ofNat']; omega
    refine .inr ⟨_, _, if_neg hBmp, ?_, ?_, ?_⟩
    all_goals
      simp only [hHigh, hLow]
      omega

private theorem decodeUnits_charUnits_append (c : Char) (rest : List UInt16) :
    decodeUnits (charUnits c ++ rest) = c :: decodeUnits rest := by
  rcases charUnits_cases c with ⟨u, hUnits, hOut, hNat⟩ | ⟨u, v, hUnits, hIn, hPair, hNat⟩
  · rw [hUnits]
    cases rest with
    | nil =>
        simp only [List.append_nil, decodeUnits, if_pos hOut, hNat, Char.ofNat_toNat]
    | cons v rest =>
        simp only [List.cons_append, List.nil_append, decodeUnits, if_pos hOut, hNat,
          Char.ofNat_toNat]
  · simp only [hUnits, List.cons_append, List.nil_append, decodeUnits, if_neg hIn, if_pos hPair,
      hNat, Char.ofNat_toNat]

/-- The units of a text decode to that text. -/
theorem decodeUtf16_unitsOf (s : String) : decodeUtf16 (unitsOf s) = s := by
  have h : ∀ cs : List Char, decodeUnits (cs.flatMap charUnits) = cs := by
    intro cs
    induction cs with
    | nil => rfl
    | cons c cs ih => rw [List.flatMap_cons, decodeUnits_charUnits_append, ih]
  simp [decodeUtf16, unitsOf, h]

end AppResources.Text
