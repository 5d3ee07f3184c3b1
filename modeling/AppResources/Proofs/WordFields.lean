import AppResources.Proofs.SubtagKinds
import AppResources.Proofs.SubtagWord

/-!
# Fields that words leave

A field of a locale that is set was read from a word of letters and digits. Its text is a word
again, though not always the same one: a code of three characters keeps five bits of each, and
capitals are changed. But the text is of the same kind as the word, and it is read as the same
value.

## Main definitions

* `ReadFromWord`: a field that is empty or was read from a word.
* `Prints`: a field that is empty or has a text that is read as its value.

## Main results

* `ReadFromWord.prints`: what was read from words has texts if every word has one.
* `spells_language`, `spells_region`, `spells_script` and `spells_long`: the text of what is read
  from a word, for each kind of field.
-/

namespace AppResources

/-! ## Bytes of words -/

namespace Text

variable {b : UInt8} {bytes : List UInt8}

theorem plain_upperByte : isWordByte b = true →
    Plain (upperByte b) ∧ upperByte (upperByte b) = upperByte b ∧
      isDigitByte (upperByte b) = isDigitByte b :=
  of_isWordByte
    (p := fun b => Plain (upperByte b) ∧ upperByte (upperByte b) = upperByte b ∧
      isDigitByte (upperByte b) = isDigitByte b)
    (by decide +kernel)

theorem asciiBytes_latinChars (bytes : List UInt8) : asciiBytes (latinChars bytes) = bytes := by
  rw [asciiBytes, latinChars, List.map_map]
  refine (List.map_congr_left fun b _ => ?_).trans (List.map_id bytes)
  show UInt8.ofNat (Char.ofNat b.toNat).toNat = b
  rw [toNat_ofNat_byte, UInt8.ofNat_toNat]

theorem isAscii_latinChars (h : ∀ b ∈ bytes, Plain b) : IsAscii (latinChars bytes) := by
  intro a ha
  obtain ⟨b, hb, rfl⟩ := List.mem_map.mp ha
  rw [toNat_ofNat_byte]
  exact UInt8.lt_iff_toNat_lt.mp (h b hb).2.1

theorem dashless_latinChars (h : ∀ b ∈ bytes, Plain b) : '-' ∉ latinChars bytes := by
  intro hdash
  obtain ⟨b, hb, hchar⟩ := List.mem_map.mp hdash
  have hcode := congrArg Char.toNat hchar
  rw [toNat_ofNat_byte] at hcode
  exact (h b hb).2.2 (UInt8.toNat_inj.mp hcode)

theorem map_lowerByte_lowerByte (h : IsWord bytes) :
    (bytes.map lowerByte).map lowerByte = bytes.map lowerByte := by
  rw [List.map_map]
  exact List.map_congr_left fun b hb => (plain_lowerByte (h b hb)).2.1

/-- The text of a padded field. -/
theorem paddedText_of_plain {n : Nat} (h : ∀ b ∈ bytes, Plain b) (hlength : bytes.length ≤ n) :
    Locale.paddedText (padded n bytes).toList = latinChars bytes := by
  have hset : ∀ a ∈ latinChars bytes, UInt8.ofNat a.toNat ≠ 0 := by
    intro a ha
    obtain ⟨b, hb, rfl⟩ := List.mem_map.mp ha
    rw [toNat_ofNat_byte, UInt8.ofNat_toNat]
    exact (h b hb).1
  have htext := Qualifier.paddedText_padded (n := n) (isAscii_latinChars h) hset
    (by rwa [length_latinChars])
  rwa [asciiBytes_latinChars] at htext

end Text

/-! ## Fields and their texts -/

section Fields

variable {α : Type} {shape : List UInt8 → Prop} {read : List UInt8 → α} {value : α}
  {text : List Char} {bytes : List UInt8}

/-- A text of a shape that is read as a value. -/
structure Spells (shape : List UInt8 → Prop) (read : List UInt8 → α) (value : α)
    (text : List Char) : Prop where
  ascii : Text.IsAscii text
  dashless : '-' ∉ text
  shape : shape (Text.asciiBytes text)
  read : read (Text.asciiBytes text) = value

theorem Spells.of_bytes (htext : text = Text.latinChars bytes) (hplain : ∀ b ∈ bytes, Text.Plain b)
    (hshape : shape bytes) (hread : read bytes = value) : Spells shape read value text where
  ascii := htext ▸ Text.isAscii_latinChars hplain
  dashless := htext ▸ Text.dashless_latinChars hplain
  shape := by rwa [htext, Text.asciiBytes_latinChars]
  read := by rwa [htext, Text.asciiBytes_latinChars]

/-- A field that is empty, or has a text that is read as its value. -/
structure Prints (shape : List UInt8 → Prop) (read : List UInt8 → α) (none value : α)
    (set : Bool) (text : List Char) : Prop where
  missing : set = false → value = none
  spells : set = true → Spells shape read value text

/-- The subtags that a field takes. -/
def subtagsFor (set : Bool) (text : List Char) : List (List Char) := if set then [text] else []

theorem Prints.plain {none : α} {set : Bool} (h : Prints shape read none value set text) :
    ∀ t ∈ subtagsFor set text, Text.IsAscii t ∧ '-' ∉ t := by
  cases set with
  | false => exact fun t ht => absurd ht List.not_mem_nil
  | true =>
      obtain ⟨hascii, hdashless, -, -⟩ := h.spells rfl
      exact List.forall_mem_singleton.mpr ⟨hascii, hdashless⟩

/-- A field that is empty, or was read from a word. -/
def ReadFromWord (shape : List UInt8 → Prop) (read : List UInt8 → α) (none value : α) : Prop :=
  value = none ∨ ∃ part, Text.IsWord part ∧ shape part ∧ read part = value

/-- What was read from a word has a text if every word has one. -/
theorem ReadFromWord.prints {none : α} (h : ReadFromWord shape read none value)
    (isSet : α → Bool) (textOf : α → List Char) (hnone : isSet none = false)
    (hword : ∀ part, Text.IsWord part → shape part →
      isSet (read part) = true ∧ Spells shape read (read part) (textOf (read part))) :
    Prints shape read none value (isSet value) (textOf value) := by
  rcases h with rfl | ⟨part, hpart, hshape, rfl⟩
  · exact ⟨fun _ => rfl, fun hset => absurd hset (by rw [hnone]; decide)⟩
  · obtain ⟨hset, hspells⟩ := hword part hpart hshape
    exact ⟨fun hunset => absurd (hset.symm.trans hunset) (by decide), fun _ => hspells⟩

end Fields

/-! ## Codes -/

namespace Subtag

open Text

variable {part : List UInt8} {a b c : UInt8}

/-- What is packed of digits and small letters in a language. -/
def smallOffsets : List UInt8 :=
  (asciiBytes "0123456789abcdefghijklmnopqrstuvwxyz".toList).map fun b => (b - 0x61) &&& 0x7f

theorem offset_mem_smallOffsets :
    isWordByte b = true → (lowerByte b - 0x61) &&& 0x7f ∈ smallOffsets :=
  of_isWordByte (p := fun b => (lowerByte b - 0x61) &&& 0x7f ∈ smallOffsets) (by decide +kernel)

/-- Of three letters and digits a language keeps three ASCII characters. -/
theorem languageText_ofLanguage_three (h : IsWord [a, b, c]) :
    ∃ x y z, x < 0x80 ∧ y < 0x80 ∧ z < 0x80 ∧
      (ofLanguage [a, b, c]).languageText = latinChars [x, y, z] := by
  -- each character depends on two of the three only
  have hone : ∀ x ∈ smallOffsets, ∀ y ∈ smallOffsets, ((y <<< 5 ||| x) &&& 0x1f) + 0x61 < 0x80 := by
    decide +kernel
  have hcarry : ∀ y ∈ smallOffsets, ∀ z ∈ smallOffsets,
      (z <<< 2 ||| y >>> 3 ||| (0x80 : UInt8)) &&& (0x03 : UInt8) = (y >>> 3) &&& 0x03 := by
    decide +kernel
  have htwo : ∀ x ∈ smallOffsets, ∀ y ∈ smallOffsets,
      (((y <<< 5 ||| x) &&& 0xe0) >>> 5) + (((y >>> 3) &&& 0x03) <<< 3) + 0x61 < 0x80 := by
    decide +kernel
  have hthree : ∀ y ∈ smallOffsets, ∀ z ∈ smallOffsets,
      ((z <<< 2 ||| y >>> 3 ||| 0x80) &&& (0x7c : UInt8)) >>> 2 + 0x61 < 0x80 := by
    decide +kernel
  obtain ⟨ha, hb, hc⟩ : isWordByte a = true ∧ isWordByte b = true ∧ isWordByte c = true := by
    simpa [IsWord] using h
  have hx := offset_mem_smallOffsets ha
  have hy := offset_mem_smallOffsets hb
  have hz := offset_mem_smallOffsets hc
  refine ⟨_, _, _, hone _ hx _ hy, hcarry _ hy _ hz ▸ htwo _ hx _ hy, hthree _ hy _ hz, ?_⟩
  show unpack 0x61 (pack 0x61 [lowerByte a, lowerByte b, lowerByte c]) = _
  rw [unpack, if_pos (le_first_pack_three _ _ _ _)]
  rfl

theorem plain_of_le {base x : UInt8} (hbase : 0x30 ≤ base) (hle : base ≤ x) (hascii : x < 0x80) :
    Plain x := by
  have hlow : 0x30 ≤ x := UInt8.le_trans hbase hle
  refine ⟨?_, hascii, ?_⟩
  · rintro rfl
    exact absurd hlow (by decide)
  · rintro rfl
    exact absurd hlow (by decide)

/-- What five bits count from the small letters on is no capital. -/
theorem lowerByte_of_le {x : UInt8} (h : 0x61 ≤ x) : lowerByte x = x :=
  if_neg fun hcapital => absurd (UInt8.le_trans h hcapital.2) (by decide)

/-- What five bits count from the digits on ends in front of the small letters. -/
theorem plain_regionByte {x : UInt8} (h : 0x30 ≤ x ∧ x.toNat < (0x30 : UInt8).toNat + 32) :
    Plain x ∧ upperByte x = x := by
  obtain ⟨hlow, hhigh⟩ := h
  have hcode : x.toNat < 0x50 := hhigh
  constructor
  · refine plain_of_le (by decide) hlow (UInt8.lt_iff_toNat_lt.mpr ?_)
    show _ < 128
    omega
  · refine if_neg fun hsmall => ?_
    have hle : 0x61 ≤ x.toNat := UInt8.le_iff_toNat_le.mp hsmall.1
    omega

theorem two_or_three_of_code (h : PartKind.of part = .code) :
    (∃ a b, part = [a, b]) ∨ ∃ a b c, part = [a, b, c] :=
  (PartKind.of_eq_code_iff.mp h).imp List.length_eq_two.mp List.length_eq_three.mp

/-- The text of a language is read as it. -/
theorem spells_language (hword : IsWord part) (hkind : PartKind.of part = .code) :
    (ofLanguage part).isSet = true ∧
      Spells (PartKind.of · = .code) ofLanguage (ofLanguage part)
        (ofLanguage part).languageText := by
  rcases two_or_three_of_code hkind with ⟨a, b, rfl⟩ | ⟨a, b, c, rfl⟩
  · have hplain := plain_of_isWord hword
    obtain ⟨hset, htext⟩ := unpack_pack_two 0x61 (lowerByte a) (lowerByte b)
      (hplain _ (by simp)).1 (hplain _ (by simp)).2.1
    refine ⟨hset, .of_bytes htext hplain hkind ?_⟩
    exact congrArg (pack 0x61) (map_lowerByte_lowerByte hword)
  · have hlong : 0x80 ≤ (ofLanguage [a, b, c]).first := le_first_pack_three _ _ _ _
    obtain ⟨x, y, z, hx, hy, hz, htext⟩ := languageText_ofLanguage_three hword
    obtain ⟨x', y', z', ⟨hx', -⟩, ⟨hy', -⟩, ⟨hz', -⟩, htext', hpack⟩ :=
      pack_unpack_three (show (0x61 : UInt8).toNat + 32 ≤ 256 by decide) hlong
    obtain ⟨rfl, rfl, rfl⟩ : x = x' ∧ y = y' ∧ z = z' := by
      simpa using latinChars_inj (htext.symm.trans htext')
    refine ⟨isSet_of_long hlong, .of_bytes htext ?_ hkind ?_⟩
    · simp only [List.forall_mem_cons]
      exact ⟨plain_of_le (by decide) hx' hx, plain_of_le (by decide) hy' hy,
        plain_of_le (by decide) hz' hz, by simp⟩
    · rw [ofLanguage, List.map_cons, List.map_cons, List.map_cons, lowerByte_of_le hx',
        lowerByte_of_le hy', lowerByte_of_le hz']
      exact hpack

/-- The text of a region is read as it. -/
theorem spells_region (hword : IsWord part) (hkind : PartKind.of part = .code) :
    (ofRegion part).isSet = true ∧
      Spells (PartKind.of · = .code) ofRegion (ofRegion part) (ofRegion part).regionText := by
  rcases two_or_three_of_code hkind with ⟨a, b, rfl⟩ | ⟨a, b, c, rfl⟩
  · obtain ⟨ha, hb⟩ : isWordByte a = true ∧ isWordByte b = true := by simpa [IsWord] using hword
    obtain ⟨hplain, hupper, -⟩ := plain_upperByte ha
    obtain ⟨hplain', hupper', -⟩ := plain_upperByte hb
    obtain ⟨hset, htext⟩ := unpack_pack_two 0x30 (upperByte a) (upperByte b) hplain.1 hplain.2.1
    refine ⟨hset, .of_bytes htext (by simp [hplain, hplain']) hkind ?_⟩
    show pack 0x30 [upperByte (upperByte a), upperByte (upperByte b)] = _
    rw [hupper, hupper']
    rfl
  · have hlong : 0x80 ≤ (ofRegion [a, b, c]).first := le_first_pack_three _ _ _ _
    obtain ⟨x, y, z, hx, hy, hz, htext, hpack⟩ :=
      pack_unpack_three (show (0x30 : UInt8).toNat + 32 ≤ 256 by decide) hlong
    obtain ⟨hx, hupperx⟩ := plain_regionByte hx
    obtain ⟨hy, huppery⟩ := plain_regionByte hy
    obtain ⟨hz, hupperz⟩ := plain_regionByte hz
    refine ⟨isSet_of_long hlong, .of_bytes htext (by simp [hx, hy, hz]) hkind ?_⟩
    rw [ofRegion, List.map_cons, List.map_cons, List.map_cons, hupperx, huppery, hupperz]
    exact hpack

end Subtag

namespace Locale

open Text

variable {l : Locale} {part : List UInt8} {parts : List (List UInt8)}

/-! ## Scripts -/

theorem scriptOf_four (a b c d : UInt8) :
    scriptOf [a, b, c, d] = padded 4 [upperByte a, lowerByte b, lowerByte c, lowerByte d] := by
  refine congrArg Vector.ofFn (funext fun i => ?_)
  match i with
  | 0 => rfl
  | 1 => rfl
  | 2 => rfl
  | 3 => rfl

theorem spells_script (hword : IsWord part) (hkind : PartKind.of part = .script) :
    Script.isSet (scriptOf part) = true ∧
      Spells (PartKind.of · = .script) scriptOf (scriptOf part)
        (paddedText (scriptOf part).toList) := by
  obtain ⟨hlength, hletter⟩ := PartKind.of_eq_script_iff.mp hkind
  match part, hlength with
  | [a, b, c, d], _ =>
      simp only [IsWord, List.forall_mem_cons] at hword
      obtain ⟨ha, hb, hc, hd, -⟩ := hword
      obtain ⟨hplain, hupper, hdigit⟩ := plain_upperByte ha
      obtain ⟨hplainb, hlowerb, -⟩ := plain_lowerByte hb
      obtain ⟨hplainc, hlowerc, -⟩ := plain_lowerByte hc
      obtain ⟨hplaind, hlowerd, -⟩ := plain_lowerByte hd
      have hbytes : ∀ x ∈ [upperByte a, lowerByte b, lowerByte c, lowerByte d], Plain x := by
        simp [hplain, hplainb, hplainc, hplaind]
      rw [scriptOf_four]
      refine ⟨bne_iff_ne.mpr hplain.1,
        .of_bytes (paddedText_of_plain hbytes (by simp)) hbytes ?_ ?_⟩
      · exact PartKind.of_eq_script_iff.mpr ⟨rfl, hdigit.trans hletter⟩
      · rw [scriptOf_four, hupper, hlowerb, hlowerc, hlowerd]

/-! ## Variants and numbering systems -/

/-- A field with a word in it. -/
def longOf (part : List UInt8) : LongSubtag := padded 8 (part.map lowerByte)

theorem overwrite_longOf (old part : List UInt8) :
    (longOf old).overwrite part = longOf (part ++ old.drop part.length) := by
  rw [longOf, overwrite_padded, longOf, List.map_append, List.map_drop]

theorem overwrite_empty (part : List UInt8) :
    LongSubtag.overwrite (Vector.replicate 8 0) part = longOf part := by
  refine (overwrite_longOf [] part).trans ?_
  rw [List.drop_nil, List.append_nil]

theorem spells_long {shape : List UInt8 → Prop} (hword : IsWord part) (hne : part ≠ [])
    (hlength : part.length ≤ 8) (hshape : shape (part.map lowerByte)) :
    ((longOf part)[0] != 0) = true ∧
      Spells shape longOf (longOf part) (paddedText (longOf part).toList) := by
  have hplain := plain_of_isWord hword
  constructor
  · obtain ⟨b, rest, rfl⟩ := List.exists_cons_of_ne_nil hne
    exact bne_iff_ne.mpr (hplain (lowerByte b) (by simp)).1
  · refine .of_bytes (paddedText_of_plain hplain (by rwa [List.length_map])) hplain hshape ?_
    exact congrArg (padded 8) (map_lowerByte_lowerByte hword)

/-- The kind of a word does not depend on its case. -/
theorem of_map_lowerByte (hword : IsWord part) :
    PartKind.of (part.map lowerByte) = PartKind.of part := by
  have hdigit : startsWithDigit (part.map lowerByte) = startsWithDigit part := by
    cases part with
    | nil => rfl
    | cons b rest => exact (plain_lowerByte (hword b List.mem_cons_self)).2.2
  rw [PartKind.of, PartKind.of, List.length_map, hdigit]

/-- What is left of a variant stands behind another one. -/
theorem of_variant_append {old : List UInt8} (hpart : PartKind.of part = .variant)
    (hold : PartKind.of old = .variant) :
    PartKind.of (part ++ old.drop part.length) = .variant := by
  rw [PartKind.of_eq_variant_iff] at *
  obtain ⟨hlow, hhigh, hdigit⟩ := hpart
  rw [List.length_append, List.length_drop]
  refine ⟨by omega, by omega, fun hfour => ?_⟩
  obtain ⟨b, rest, rfl⟩ := List.exists_cons_of_length_pos (by omega : 0 < part.length)
  exact hdigit (by omega)

/-- The length of a numbering system. -/
def IsNumbering (part : List UInt8) : Prop := 3 ≤ part.length ∧ part.length ≤ 8

/-- A word is written over another one. -/
theorem readFromWord_overwrite {shape : List UInt8 → Prop} {field : LongSubtag}
    (h : ReadFromWord shape longOf (Vector.replicate 8 0) field) (hword : IsWord part)
    (hshape : shape part) (hover : ∀ old, shape old → shape (part ++ old.drop part.length)) :
    ReadFromWord shape longOf (Vector.replicate 8 0) (field.overwrite part) := by
  rcases h with rfl | ⟨old, hold, hshape', rfl⟩
  · exact Or.inr ⟨part, hword, hshape, (overwrite_empty part).symm⟩
  · refine Or.inr ⟨part ++ old.drop part.length, ?_, hover old hshape',
      (overwrite_longOf old part).symm⟩
    exact List.forall_mem_append.mpr ⟨hword, fun b hb => hold b (List.mem_of_mem_drop hb)⟩

end Locale

end AppResources
