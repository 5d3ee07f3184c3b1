import AppResources.Proofs.QualifierToken

/-!
# Words in the fields of a locale

A word of digits and small letters takes one byte a character. In a field of fixed width it
stands in front of zeros, and the text of the field is the word again; a script has its first
letter in capitals. A region keeps five bits of each of three characters. Its text need not be
the word it was named by, but it names the same region.

## Main definitions

* `padded`: a field with bytes in front and zeros behind them.
* `Qualifier.IsScriptWord` and so on: the shape of the words in each field.

## Main results

* `paddedText_padded`: the text of a field is the word in it.
* `overwrite_padded`: what a word leaves of the one that stood in a field before.
* `exists_regionWord`: a word names a region as the text of one does.
-/

namespace AppResources

/-! ## Text of one byte a character -/

namespace Text

/-- Text of one byte a character. -/
def IsAscii (cs : List Char) : Prop := ∀ a ∈ cs, a.toNat < 128

variable {cs : List Char}

theorem length_asciiBytes (cs : List Char) : (asciiBytes cs).length = cs.length :=
  List.length_map _

theorem utf8Bytes_ofList (h : IsAscii cs) : utf8Bytes (String.ofList cs) = asciiBytes cs := by
  have hsingle : ∀ a ∈ cs, String.utf8EncodeChar a = [UInt8.ofNat a.toNat] := by
    intro a ha
    have hle : a.val.toNat ≤ 127 := Nat.le_of_lt_succ (h a ha)
    simp only [String.utf8EncodeChar, if_pos hle]
    rfl
  show ((cs.flatMap String.utf8EncodeChar).toByteArray).data.toList = asciiBytes cs
  rw [List.flatMap_congr hsingle, ← List.map_eq_flatMap]
  simp [asciiBytes]

theorem toNat_ofNat_of_ascii {a : Char} (ha : a.toNat < 128) :
    (UInt8.ofNat a.toNat).toNat = a.toNat := by
  rw [UInt8.toNat_ofNat']
  exact Nat.mod_eq_of_lt (by omega)

theorem of_asciiByte {a : Char} (ha : a.toNat < 128) :
    LeadByte.of (UInt8.ofNat a.toNat) = .whole a := by
  have hbyte := toNat_ofNat_of_ascii ha
  have hlow : UInt8.ofNat a.toNat < 0x80 := by
    rw [UInt8.lt_iff_toNat_lt, hbyte]
    exact ha
  simp only [LeadByte.of, if_pos hlow, hbyte, Char.ofNat_toNat]

theorem scanUtf8_asciiBytes (h : IsAscii cs) : scanUtf8 none (asciiBytes cs) = cs.map some := by
  induction cs with
  | nil => rfl
  | cons a cs ih =>
      have hrest : IsAscii cs := fun b hb => h b (List.mem_cons_of_mem a hb)
      show scanUtf8 none (UInt8.ofNat a.toNat :: asciiBytes cs) = some a :: cs.map some
      rw [scanUtf8, of_asciiByte (h a List.mem_cons_self)]
      dsimp only
      rw [ih hrest]

theorem strictUtf8?_asciiBytes (h : IsAscii cs) : strictUtf8? (asciiBytes cs) = some cs := by
  have hsome : cs.mapM (fun a => (pure a : Option Char)) = pure (cs.map id) := List.mapM_pure
  rw [strictUtf8?, scanUtf8_asciiBytes h, List.mapM_map]
  exact hsome.trans (congrArg some (List.map_id cs))

/-- Joined by dashes, texts without a dash fall apart again. -/
theorem splitOn_dashed {parts : List (List Char)} (hascii : ∀ part ∈ parts, IsAscii part)
    (hdashless : ∀ part ∈ parts, '-' ∉ part) (hne : parts ≠ []) :
    (utf8Bytes (String.ofList (['-'].intercalate parts))).splitOn 0x2d =
      parts.map asciiBytes := by
  have hbytes : asciiBytes (['-'].intercalate parts) = [0x2d].intercalate (parts.map asciiBytes) :=
    map_intercalate _ ['-'] parts
  have hwhole : IsAscii (['-'].intercalate parts) := forall_mem_intercalate (by decide) hascii
  rw [utf8Bytes_ofList hwhole, hbytes]
  refine List.splitOn_intercalate 0x2d ?_ (by simpa using hne)
  intro bytes hmem hdash
  obtain ⟨part, hpart, rfl⟩ := List.mem_map.mp hmem
  obtain ⟨a, ha, hbyte⟩ := List.mem_map.mp hdash
  have hcode := toNat_ofNat_of_ascii (hascii part hpart a ha)
  rw [hbyte] at hcode
  have hchar : a = '-' := Char.toNat_inj.mp hcode.symm
  exact hdashless part hpart (hchar ▸ ha)

end Text

/-! ## Padded fields -/

/-- A field of fixed width with bytes in front and zeros behind them. -/
def padded (n : Nat) (bytes : List UInt8) : Vector UInt8 n :=
  Vector.ofFn fun i => (bytes[i.val]?).getD 0

theorem get_padded {n : Nat} (bytes : List UInt8) (i : Fin n) :
    (padded n bytes).get i = (bytes[i.val]?).getD 0 := by
  show (padded n bytes)[i.val] = _
  simp [padded]

theorem toList_padded {n : Nat} {bytes : List UInt8} (h : bytes.length ≤ n) :
    (padded n bytes).toList = bytes ++ List.replicate (n - bytes.length) 0 := by
  refine List.ext_getElem ?_ fun i hi hi' => ?_
  · simp [h]
  · by_cases hfront : i < bytes.length
    · simp [padded, hfront]
    · rw [List.getElem_append_right (Nat.le_of_not_lt hfront), List.getElem_replicate]
      simp [padded, hfront]

/-- What stands in a field before its first zero. -/
theorem takeWhile_padded {n : Nat} {bytes : List UInt8} (hzero : ∀ b ∈ bytes, b ≠ 0)
    (h : bytes.length ≤ n) : (padded n bytes).toList.takeWhile (· ≠ 0) = bytes := by
  have hfront : ∀ b ∈ bytes, decide (b ≠ 0) = true := fun b hb => decide_eq_true (hzero b hb)
  have hbehind : (List.replicate (n - bytes.length) (0 : UInt8)).takeWhile (· ≠ 0) = [] := by
    simp
  rw [toList_padded h, List.takeWhile_append_of_pos hfront, hbehind, List.append_nil]

/-- The bytes in front are replaced; what they do not cover stays. -/
theorem overwrite_padded (old part : List UInt8) :
    LongSubtag.overwrite (padded 8 old) part =
      padded 8 (part.map Text.lowerByte ++ old.drop part.length) := by
  refine congrArg Vector.ofFn (funext fun i => ?_)
  rw [get_padded]
  by_cases hi : i.val < part.length
  · have hfront : i.val < (part.map Text.lowerByte).length := by simpa using hi
    rw [List.getElem?_append_left hfront]
    simp [hi]
  · have hbehind : (part.map Text.lowerByte).length ≤ i.val := by simpa using hi
    have hplace : part.length + (i.val - part.length) = i.val := by omega
    rw [List.getElem?_append_right hbehind, List.length_map, List.getElem?_drop, hplace]
    simp [hi]

/-! ## Words of letters and digits -/

namespace Qualifier

/-- A word that stays one subtag behind and in front of plus signs and dashes. -/
structure Separable (word : List Char) : Prop where
  ascii : Text.IsAscii word
  plusless : '+' ∉ word
  dashless : '-' ∉ word

variable {a : Char} {word part : List Char}

theorem ascii_of_small : (a.isDigit || a.isLower) = true → a.toNat < 128 :=
  of_small (p := fun a => a.toNat < 128) (by decide +kernel) (by decide +kernel)

theorem byte_ne_zero : (a.isDigit || a.isLower) = true → UInt8.ofNat a.toNat ≠ 0 :=
  of_small (p := fun a => UInt8.ofNat a.toNat ≠ 0) (by decide +kernel) (by decide +kernel)

theorem lowerByte_of_small : (a.isDigit || a.isLower) = true →
    Text.lowerByte (UInt8.ofNat a.toNat) = UInt8.ofNat a.toNat :=
  of_small (p := fun a => Text.lowerByte (UInt8.ofNat a.toNat) = UInt8.ofNat a.toNat)
    (by decide +kernel) (by decide +kernel)

/-- A letter in capitals is one byte, too, and no other letter has it. -/
theorem upper_of_small : (a.isDigit || a.isLower) = true →
    a.toUpper.toNat < 128 ∧ Text.upperByte (UInt8.ofNat a.toNat) = UInt8.ofNat a.toUpper.toNat ∧
      UInt8.ofNat a.toUpper.toNat ≠ 0 ∧ a.toUpper.toLower = a :=
  of_small
    (p := fun a => a.toUpper.toNat < 128 ∧
      Text.upperByte (UInt8.ofNat a.toNat) = UInt8.ofNat a.toUpper.toNat ∧
        UInt8.ofNat a.toUpper.toNat ≠ 0 ∧ a.toUpper.toLower = a)
    (by decide +kernel) (by decide +kernel)

theorem isAscii_of_isSmall (h : isSmall word = true) : Text.IsAscii word := by
  intro a ha
  exact ascii_of_small (small_of_mem h ha)

theorem separable_of_isSmall (h : isSmall word = true) : Separable word := by
  refine ⟨isAscii_of_isSmall h, ?_, dashless_of_isSmall h⟩
  intro hplus
  exact absurd (small_of_mem h hplus) (by decide)

theorem map_lowerByte (h : isSmall word = true) :
    (Text.asciiBytes word).map Text.lowerByte = Text.asciiBytes word := by
  rw [Text.asciiBytes, List.map_map]
  refine List.map_congr_left ?_
  intro a ha
  exact lowerByte_of_small (small_of_mem h ha)

/-- The text of a field is the word in it. -/
theorem paddedText_padded {n : Nat} (hascii : Text.IsAscii word)
    (hzero : ∀ a ∈ word, UInt8.ofNat a.toNat ≠ 0) (hlength : word.length ≤ n) :
    Locale.paddedText (padded n (Text.asciiBytes word)).toList = word := by
  have hfits : (Text.asciiBytes word).length ≤ n := by
    rw [Text.length_asciiBytes]
    exact hlength
  have hfront : ∀ b ∈ Text.asciiBytes word, b ≠ 0 := by
    intro b hb
    obtain ⟨a, ha, rfl⟩ := List.mem_map.mp hb
    exact hzero a ha
  rw [Locale.paddedText, takeWhile_padded hfront hfits, Text.strictUtf8?_asciiBytes hascii,
    Option.getD_some]

theorem paddedText_of_isSmall {n : Nat} (h : isSmall word = true) (hlength : word.length ≤ n) :
    Locale.paddedText (padded n (Text.asciiBytes word)).toList = word := by
  refine paddedText_padded (isAscii_of_isSmall h) ?_ hlength
  intro a ha
  exact byte_ne_zero (small_of_mem h ha)

/-- There is something in a field if there is a word in it. -/
theorem padded_zero_ne {n : Nat} (h : isSmall word = true) :
    ((padded (n + 1) (Text.asciiBytes word))[0] != 0) = !word.isEmpty := by
  cases word with
  | nil => simp [padded, Text.asciiBytes]
  | cons a word =>
      have hset := byte_ne_zero (small_of_mem h List.mem_cons_self)
      simpa [padded, Text.asciiBytes] using hset

/-! ## Shapes -/

/-- Whether a word starts with a digit. -/
def startsWithDigit (word : List Char) : Bool :=
  ((Text.asciiBytes word).head?.map Text.isDigitByte).getD false

/-- Four letters and digits, a letter first. -/
structure IsScriptWord (word : List Char) : Prop where
  small : isSmall word = true
  length : word.length = 4
  letter : startsWithDigit word = false

/-- Five to eight letters and digits, or four with a digit first. -/
structure IsVariantWord (word : List Char) : Prop where
  small : isSmall word = true
  length : (word.length = 4 ∧ startsWithDigit word = true) ∨ (5 ≤ word.length ∧ word.length ≤ 8)

/-- Three to eight letters and digits. -/
structure IsNumberingWord (word : List Char) : Prop where
  small : isSmall word = true
  length : 3 ≤ word.length ∧ word.length ≤ 8

/-- Two or three characters that are, in small letters, the text of the region they name. Of
three characters a region keeps five bits each, so that this does not hold of all letters. -/
structure IsRegionWord (word : List Char) : Prop where
  separable : Separable word
  length : word.length = 2 ∨ word.length = 3
  isSet : (Subtag.ofRegion (Text.asciiBytes word)).isSet = true
  text : (Subtag.ofRegion (Text.asciiBytes word)).regionText.map Char.toLower = word

/-! ## Scripts -/

/-- A word with its first letter in capitals. -/
def capitalized : List Char → List Char
  | [] => []
  | a :: word => a.toUpper :: word

theorem scriptOf_eq_padded (h : isSmall word = true) :
    Locale.scriptOf (Text.asciiBytes word) = padded 4 (Text.asciiBytes (capitalized word)) := by
  refine congrArg Vector.ofFn (funext fun i => ?_)
  cases word with
  | nil => rfl
  | cons a word =>
      obtain ⟨-, hupper, -, -⟩ := upper_of_small (small_of_mem h List.mem_cons_self)
      match hi : i.val with
      | 0 => simpa [Text.asciiBytes, capitalized] using hupper
      | k + 1 =>
          cases hk : word[k]? with
          | none => simp [Text.asciiBytes, capitalized, hk]
          | some b =>
              have hb := List.mem_cons_of_mem a (List.mem_of_getElem? hk)
              simpa [Text.asciiBytes, capitalized, hk] using lowerByte_of_small (small_of_mem h hb)

theorem script_isSet (h : isSmall word = true) :
    Script.isSet (Locale.scriptOf (Text.asciiBytes word)) = !word.isEmpty := by
  rw [scriptOf_eq_padded h]
  cases word with
  | nil => rfl
  | cons a word =>
      obtain ⟨-, -, hset, -⟩ := upper_of_small (small_of_mem h List.mem_cons_self)
      simpa [Script.isSet, padded, Text.asciiBytes, capitalized] using hset

theorem scriptText_of_isSmall (h : isSmall word = true) (hlength : word.length ≤ 4) :
    (Locale.paddedText (Locale.scriptOf (Text.asciiBytes word)).toList).map Char.toLower = word := by
  rw [scriptOf_eq_padded h]
  cases word with
  | nil => rfl
  | cons a word =>
      obtain ⟨hascii, -, hset, hlower⟩ := upper_of_small (small_of_mem h List.mem_cons_self)
      have hrest : isSmall word = true := (Bool.and_eq_true_iff.mp h).2
      have htext : Locale.paddedText
          (padded 4 (Text.asciiBytes (a.toUpper :: word))).toList = a.toUpper :: word := by
        refine paddedText_padded ?_ ?_ hlength
        · exact List.forall_mem_cons.mpr ⟨hascii, isAscii_of_isSmall hrest⟩
        · exact List.forall_mem_cons.mpr
            ⟨hset, fun b hb => byte_ne_zero (small_of_mem hrest hb)⟩
      rw [capitalized, htext, List.map_cons, hlower, map_toLower_of_isSmall hrest]

/-! ## Regions -/

/-- The byte of a region is that of its text in small letters. -/
theorem regionByte_toLower {b : UInt8} (hlow : 0x30 ≤ b) (hhigh : b.toNat < 0x50) :
    (Char.ofNat b.toNat).toLower.toNat < 128 ∧ (Char.ofNat b.toNat).toLower ≠ '+' ∧
      (Char.ofNat b.toNat).toLower ≠ '-' ∧ regionByte (Char.ofNat b.toNat).toLower = b := by
  have hle : 0x30 ≤ b.toNat := UInt8.le_iff_toNat_le.mp hlow
  have hcount : ∃ k < 32, b = UInt8.ofNat (0x30 + k) := by
    refine ⟨b.toNat - 0x30, by omega, ?_⟩
    rw [show 0x30 + (b.toNat - 0x30) = b.toNat by omega, UInt8.ofNat_toNat]
  obtain ⟨k, hk, rfl⟩ := hcount
  clear hlow hhigh hle
  revert k
  decide +kernel

/-- The text of a region of three characters names the same region. -/
theorem isRegionWord_of_long {s : Subtag} (hs : 0x80 ≤ s.first) :
    IsRegionWord (s.regionText.map Char.toLower) ∧
      Subtag.ofRegion (Text.asciiBytes (s.regionText.map Char.toLower)) = s := by
  obtain ⟨a, b, c, ⟨ha, ha'⟩, ⟨hb, hb'⟩, ⟨hc, hc'⟩, htext, hpack⟩ :=
    Subtag.pack_unpack_three (show (0x30 : UInt8).toNat + 32 ≤ 256 by decide) hs
  obtain ⟨haAscii, haPlus, haDash, haByte⟩ := regionByte_toLower ha ha'
  obtain ⟨hbAscii, hbPlus, hbDash, hbByte⟩ := regionByte_toLower hb hb'
  obtain ⟨hcAscii, hcPlus, hcDash, hcByte⟩ := regionByte_toLower hc hc'
  have hword : s.regionText.map Char.toLower =
      [(Char.ofNat a.toNat).toLower, (Char.ofNat b.toNat).toLower,
        (Char.ofNat c.toNat).toLower] := congrArg (List.map Char.toLower) htext
  have hsame : Subtag.ofRegion (Text.asciiBytes (s.regionText.map Char.toLower)) = s := by
    rw [hword]
    show Subtag.pack 0x30 [regionByte (Char.ofNat a.toNat).toLower,
      regionByte (Char.ofNat b.toNat).toLower, regionByte (Char.ofNat c.toNat).toLower] = s
    rw [haByte, hbByte, hcByte, hpack]
  refine ⟨⟨?_, ?_, ?_, ?_⟩, hsame⟩
  · rw [hword]
    constructor
    · simp [Text.IsAscii, haAscii, hbAscii, hcAscii]
    · simp [Ne.symm haPlus, Ne.symm hbPlus, Ne.symm hcPlus]
    · simp [Ne.symm haDash, Ne.symm hbDash, Ne.symm hcDash]
  · rw [hword]
    exact Or.inr rfl
  · rw [hsame]
    exact Subtag.isSet_of_long hs
  · rw [hsame]

/-- Two letters and digits are the text of the region they name. -/
theorem isRegionWord_of_two (hsmall : isSmall word = true) (htwo : word.length = 2) :
    IsRegionWord word := by
  obtain ⟨hset, htext⟩ := regionText_of_two hsmall htwo
  exact ⟨separable_of_isSmall hsmall, Or.inl htwo, hset, htext⟩

/-- Every word of two or three letters and digits names a region as the text of one does. -/
theorem exists_regionWord (hsmall : isSmall word = true)
    (hlength : word.length = 2 ∨ word.length = 3) :
    ∃ region, IsRegionWord region ∧
      Subtag.ofRegion (Text.asciiBytes region) = Subtag.ofRegion (Text.asciiBytes word) := by
  cases hlength with
  | inl htwo => exact ⟨word, isRegionWord_of_two hsmall htwo, rfl⟩
  | inr hthree =>
      obtain ⟨a, b, c, rfl⟩ := List.length_eq_three.mp hthree
      exact ⟨_, isRegionWord_of_long (Subtag.le_first_pack_three _ _ _ _)⟩

end Qualifier

end AppResources
