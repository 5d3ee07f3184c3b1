import AppResources.Locale.Tag
import Mathlib.Tactic.SplitIfs

/-!
# What a subtag is

Before the extension a subtag is a code, a script or a variant by its length and its first
character, or it is none of them and ends this part of the tag. Inside the extension only the
value of a first numbering system is kept.

## Main definitions

* `Locale.subtags`: the subtags of a tag, as bytes.
* `Locale.LettersAndDigits`: tags whose subtags consist of letters and digits.
* `PartKind`: the kinds of subtags before the extension.

## Main results

* `readBase_code`, `readBase_script`, `readBase_variant`, `readBase_other`: what a subtag of each
  kind does to a locale.
* `readExtension_cases`: inside the extension nothing changes, or the numbering system does.
-/

namespace AppResources

/-! ## Letters and digits -/

namespace Text

/-- Whether a byte is an ASCII letter or digit. -/
def isWordByte (b : UInt8) : Bool := (Char.ofNat b.toNat).isAlphanum

/-- What holds of all letters and digits holds of one of them. -/
theorem of_isWordByte {p : UInt8 → Prop}
    (h : ∀ n < 256, isWordByte (UInt8.ofNat n) = true → p (UInt8.ofNat n)) {b : UInt8}
    (hb : isWordByte b = true) : p b := by
  have hbyte := h b.toNat b.toNat_lt
  rw [UInt8.ofNat_toNat] at hbyte
  exact hbyte hb

/-- A byte that can stand in a subtag. -/
def Plain (b : UInt8) : Prop := b ≠ 0 ∧ b < 0x80 ∧ b ≠ 0x2d

instance (b : UInt8) : Decidable (Plain b) := by
  unfold Plain
  infer_instance

theorem plain_lowerByte {b : UInt8} : isWordByte b = true →
    Plain (lowerByte b) ∧ lowerByte (lowerByte b) = lowerByte b ∧
      isDigitByte (lowerByte b) = isDigitByte b :=
  of_isWordByte
    (p := fun b => Plain (lowerByte b) ∧ lowerByte (lowerByte b) = lowerByte b ∧
      isDigitByte (lowerByte b) = isDigitByte b)
    (by decide +kernel)

/-- Letters and digits in a row. -/
def IsWord (part : List UInt8) : Prop := ∀ b ∈ part, isWordByte b = true

instance (part : List UInt8) : Decidable (IsWord part) :=
  decidable_of_iff (part.all isWordByte = true) List.all_eq_true

theorem plain_of_isWord {bytes : List UInt8} (h : IsWord bytes) :
    ∀ b ∈ bytes.map lowerByte, Plain b := by
  intro b hb
  obtain ⟨a, ha, rfl⟩ := List.mem_map.mp hb
  exact (plain_lowerByte (h a ha)).1

/-- Whether a subtag starts with a digit. -/
def startsWithDigit (part : List UInt8) : Bool :=
  (part.head?.map isDigitByte).getD false

end Text

/-! ## Kinds -/

/-- What a subtag before the extension is. -/
inductive PartKind where
  | code
  | script
  | variant
  | other
  deriving DecidableEq, Repr

namespace PartKind

/-- The kind of a subtag. -/
def of (part : List UInt8) : PartKind :=
  if part.length = 2 ∨ part.length = 3 then .code
  else if part.length = 4 ∧ Text.startsWithDigit part = false then .script
  else if 4 ≤ part.length ∧ part.length ≤ 8 then .variant
  else .other

variable {part : List UInt8}

theorem of_eq_code_iff : of part = .code ↔ part.length = 2 ∨ part.length = 3 := by
  unfold of
  split_ifs <;> simp_all

theorem of_eq_script_iff :
    of part = .script ↔ part.length = 4 ∧ Text.startsWithDigit part = false := by
  unfold of
  split_ifs <;> grind

theorem of_eq_variant_iff :
    of part = .variant ↔
      4 ≤ part.length ∧ part.length ≤ 8 ∧
        (part.length = 4 → Text.startsWithDigit part = true) := by
  unfold of
  split_ifs <;> grind

theorem of_eq_other_iff : of part = .other ↔ part.length < 2 ∨ 8 < part.length := by
  unfold of
  split_ifs <;> grind

end PartKind

namespace Locale

/-- The subtags of a tag. -/
def subtags (tag : String) : List (List UInt8) := (Text.utf8Bytes tag).splitOn 0x2d

/-- Whether the subtags of a tag consist of letters and digits; a subtag may be empty. -/
def LettersAndDigits (tag : String) : Prop :=
  ∀ part ∈ subtags tag, Text.IsWord part

instance (tag : String) : Decidable (LettersAndDigits tag) := by
  unfold LettersAndDigits
  infer_instance

variable {l : Locale} {part : List UInt8}

/-! ## Before the extension -/

/-- The first code is the language, and later ones are regions. -/
theorem readBase_code (h : PartKind.of part = .code) :
    l.readBase part =
      (.base, if l.language.isSet then { l with region := .ofRegion part }
        else { l with language := .ofLanguage part }) := by
  unfold readBase
  rcases PartKind.of_eq_code_iff.mp h with hlength | hlength <;> rw [hlength] <;>
    exact (apply_ite (Prod.mk TagState.base) _ _ _).symm

/-- A script replaces the one before. -/
theorem readBase_script (h : PartKind.of part = .script) :
    l.readBase part = (.base, { l with script := scriptOf part }) := by
  obtain ⟨hlength, hletter⟩ := PartKind.of_eq_script_iff.mp h
  unfold readBase
  rw [hlength]
  exact if_neg (Bool.eq_false_iff.mp hletter)

/-- A variant is written over the one before. -/
theorem readBase_variant (h : PartKind.of part = .variant) :
    l.readBase part = (.base, { l with variant := l.variant.overwrite part }) := by
  obtain ⟨hlow, hhigh, hdigit⟩ := PartKind.of_eq_variant_iff.mp h
  unfold readBase
  by_cases hfour : part.length = 4
  · rw [hfour]
    exact if_pos (hdigit hfour)
  · have hcases : part.length = 5 ∨ part.length = 6 ∨ part.length = 7 ∨ part.length = 8 := by
      omega
    rcases hcases with hlength | hlength | hlength | hlength <;> rw [hlength] <;> rfl

/-- Behind any other subtag there are no more codes, scripts and variants. -/
theorem readBase_other (h : PartKind.of part = .other) :
    ∃ s, s ≠ .base ∧ l.readBase part = (s, l) := by
  unfold readBase
  split
  case h_1 => split <;> exact ⟨_, by decide, rfl⟩
  case h_9 => exact ⟨_, by decide, rfl⟩
  all_goals
    have hlength := PartKind.of_eq_other_iff.mp h
    omega

/-! ## Inside the extension -/

variable {s : ExtensionState}

/-- The reading does not come back from the extension. -/
theorem readExtension_fst_ne_base : (l.readExtension s part).1 ≠ .base := by
  unfold readExtension
  grind

/-- Only a value of the first numbering system changes the locale. -/
theorem readExtension_snd
    (h : s = .numberingKey → 3 ≤ part.length ∧ part.length ≤ 8 → l.hasNumbering = true) :
    (l.readExtension s part).2 = l := by
  unfold readExtension
  cases s with
  | start | ignoredKey | expectKey => split <;> rfl
  | numberingKey =>
      split
      case h_1 => rfl
      case h_8 => rfl
      all_goals
        dsimp only
        rw [if_pos (h rfl (by omega))]

/-- The value of the first numbering system is kept. -/
theorem readExtension_numbering (hlength : 3 ≤ part.length ∧ part.length ≤ 8)
    (hnone : l.hasNumbering = false) :
    l.readExtension .numberingKey part =
      (.extension .expectKey, { l with numbering := l.numbering.overwrite part }) := by
  have hcases : part.length = 3 ∨ part.length = 4 ∨ part.length = 5 ∨ part.length = 6 ∨
      part.length = 7 ∨ part.length = 8 := by omega
  unfold readExtension
  rw [hnone]
  rcases hcases with hlength | hlength | hlength | hlength | hlength | hlength <;>
    rw [hlength] <;> rfl

/-- Nothing changes, or the numbering system does. -/
theorem readExtension_cases (l : Locale) (s : ExtensionState) (part : List UInt8) :
    (l.readExtension s part).2 = l ∨
      l.hasNumbering = false ∧ 3 ≤ part.length ∧ part.length ≤ 8 ∧
        (l.readExtension s part).2 = { l with numbering := l.numbering.overwrite part } := by
  by_cases hkept : s = .numberingKey ∧ (3 ≤ part.length ∧ part.length ≤ 8) ∧
      l.hasNumbering = false
  · obtain ⟨rfl, hlength, hnone⟩ := hkept
    exact Or.inr ⟨hnone, hlength.1, hlength.2,
      congrArg Prod.snd (readExtension_numbering hlength hnone)⟩
  · refine Or.inl (readExtension_snd fun hs hlength => ?_)
    rw [← Bool.not_eq_false]
    exact fun hnone => hkept ⟨hs, hlength, hnone⟩

end Locale

end AppResources
