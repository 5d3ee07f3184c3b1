import Mathlib.Data.List.Basic
import Mathlib.Data.List.TakeDrop
import AppResources.Proofs.PackedSubtag
import AppResources.Qualifier.Print

/-!
# The meaning of printed qualifiers

Tokens are recognised by a list of rules of which the first one that fits decides. A token
with digits is read as the number it was printed from: no word and no name of a density fits
a rule for digits, and the rules for digits exclude each other.

## Main definitions

* `Qualifier.Plain`: a token that is split off whole, is left as it is by the change to small
  letters, and is not mistaken for a region or a tag.

## Main results

* `meaning_word`, `meaning_densityName`, `meaning_density`, `meaning_size` and
  `meaning_number`: the meaning of a printed token of each kind.
* `plain_word` and so on: these tokens are plain.
-/

namespace AppResources

namespace Text

theorem isDigit_of_mem_decimalChars {n : Nat} {c : Char} (h : c ∈ decimalChars n) :
    c.isDigit = true :=
  Nat.isDigit_of_mem_toDigits (by decide) (by decide) h

theorem decimalChars_ne_nil (n : Nat) : decimalChars n ≠ [] :=
  Nat.toDigits_ne_nil

/-- Digits that are all zero stand for zero. -/
theorem readDecimal?_zeros {digits : List Char} {n : Nat} (hzero : digits.all (· == '0') = true)
    (h : readDecimal? digits = some n) : n = 0 := by
  have hfrom : ∀ cs : List Char, cs.all (· == '0') = true → readDigitsFrom? 10 0 cs = some 0 := by
    intro cs hcs
    induction cs with
    | nil => rfl
    | cons c cs ih =>
        rw [List.all_cons, Bool.and_eq_true, beq_iff_eq] at hcs
        obtain ⟨rfl, hcs⟩ := hcs
        exact ih hcs
  cases digits with
  | nil => cases h
  | cons c cs =>
      rw [readDecimal?, readDigits?, hfrom _ hzero] at h
      · exact (Option.some.inj h).symm
      · exact List.cons_ne_nil c cs

/-! ## Texts joined by a separator -/

theorem map_intercalate {α β : Type} (f : α → β) (separator : List α) (parts : List (List α)) :
    (separator.intercalate parts).map f = (separator.map f).intercalate (parts.map (·.map f)) := by
  induction parts with
  | nil => rfl
  | cons part parts ih =>
      cases parts with
      | nil => simp
      | cons next parts =>
          rw [List.intercalate_cons_cons, List.map_append, List.map_append, ih]
          exact List.intercalate_cons_cons.symm

/-- What holds of all parts and of what stands between them holds of the whole. -/
theorem forall_mem_intercalate {p : Char → Prop} {separator : Char} {parts : List (List Char)}
    (hseparator : p separator) (h : ∀ part ∈ parts, ∀ a ∈ part, p a) :
    ∀ a ∈ [separator].intercalate parts, p a := by
  induction parts with
  | nil => exact fun a ha => absurd ha List.not_mem_nil
  | cons part parts ih =>
      obtain ⟨hpart, hparts⟩ := List.forall_mem_cons.mp h
      cases parts with
      | nil => simpa using hpart
      | cons next parts =>
          rw [List.intercalate_cons_cons]
          simp only [List.forall_mem_append, List.forall_mem_singleton]
          exact ⟨⟨hpart, hseparator⟩, ih hparts⟩

end Text

namespace Qualifier

variable {c : Config} {token rest : List Char}

/-! ## Digits in front -/

/-- The digits in front of other characters are split off. -/
theorem leadingDigits?_decimal (n : Nat) (hrest : rest.head?.all (!Text.isDecimalDigit ·) = true) :
    leadingDigits? (Text.decimalChars n ++ rest) = some (Text.decimalChars n, rest) := by
  have hdigits : ∀ c ∈ Text.decimalChars n, Text.isDecimalDigit c = true := fun c hc =>
    Text.isDecimalDigit_of_isDigit (Text.isDigit_of_mem_decimalChars hc)
  have hnone : rest.takeWhile Text.isDecimalDigit = [] ∧
      rest.dropWhile Text.isDecimalDigit = rest := by
    cases rest with
    | nil => exact ⟨rfl, rfl⟩
    | cons c rest =>
        have hc : ¬ Text.isDecimalDigit c = true := by simpa using hrest
        exact ⟨List.takeWhile_cons_of_neg hc, List.dropWhile_cons_of_neg hc⟩
  unfold leadingDigits?
  rw [List.span_eq_takeWhile_dropWhile, List.takeWhile_append_of_pos hdigits,
    List.dropWhile_append_of_pos hdigits, hnone.1, hnone.2, List.append_nil]
  cases hn : Text.decimalChars n with
  | nil => exact absurd hn (Text.decimalChars_ne_nil n)
  | cons c cs => rfl

theorem leadingDigits?_cons {a : Char} (ha : Text.isDecimalDigit a = false) :
    leadingDigits? (a :: rest) = none := by
  unfold leadingDigits?
  rw [List.span_eq_takeWhile_dropWhile, List.takeWhile_cons_of_neg (by rw [ha]; decide)]

theorem readNumber_decimal (token : List Char) (v : UInt16) :
    readNumber token (Text.decimalChars v.toNat) = .ok v := by
  unfold readNumber
  have hfits : decide (v.toNat < numberLimit) = true := decide_eq_true v.toNat_lt
  rw [Text.readDecimal?_decimal, Option.filter_some, if_pos hfits]
  exact congrArg Except.ok UInt16.ofNat_toNat

/-! ## Rules for digits -/

/-- Whether a rule for digits fits. -/
def hasDigits (token : List Char) : Bool :=
  (densityDigits? token).isSome || (sizeDigits? token).isSome || (numbered? token).isSome

theorem find?_word_eq_none (h : hasDigits token = true) : QualifierWord.find? token = none := by
  have hall : ∀ w ∈ QualifierWord.all, hasDigits w.word.toList = false := by decide +kernel
  refine List.find?_eq_none.mpr fun w hw heq => ?_
  rw [← beq_iff_eq.mp heq, hall w hw] at h
  cases h

theorem find?_densityName_eq_none (h : hasDigits token = true) :
    (densityNames.find? fun d => d.1.toList == token) = none := by
  have hall : ∀ d ∈ densityNames, hasDigits d.1.toList = false := by decide +kernel
  refine List.find?_eq_none.mpr fun d hd heq => ?_
  rw [← beq_iff_eq.mp heq, hall d hd] at h
  cases h

/-! ## Printed tokens -/

/-- The token of a density that is given as a number. -/
def densityToken (density : UInt16) : List Char :=
  Text.decimalChars density.toNat ++ "dpi".toList

/-- The token of a screen size. -/
def sizeToken (a b : UInt16) : List Char :=
  Text.decimalChars a.toNat ++ 'x' :: Text.decimalChars b.toNat

/-- The token of a number with its mark. -/
def numberToken (q : NumberQualifier) (value : UInt16) : List Char :=
  q.mark.toList ++ Text.decimalChars value.toNat ++ if q.inDp then "dp".toList else []

theorem densityDigits?_densityToken (density : UInt16) :
    densityDigits? (densityToken density) = some (Text.decimalChars density.toNat) := by
  rw [densityDigits?, densityToken, leadingDigits?_decimal _ rfl]
  rfl

theorem densityDigits?_sizeToken (a b : UInt16) : densityDigits? (sizeToken a b) = none := by
  rw [densityDigits?, sizeToken, leadingDigits?_decimal _ rfl]
  exact if_neg fun h => absurd (List.cons.inj h).1 (by decide)

theorem sizeDigits?_sizeToken (a b : UInt16) :
    sizeDigits? (sizeToken a b) = some (Text.decimalChars a.toNat, Text.decimalChars b.toNat) := by
  have hsecond : leadingDigits? (Text.decimalChars b.toNat ++ []) =
      some (Text.decimalChars b.toNat, []) := leadingDigits?_decimal b.toNat rfl
  rw [List.append_nil] at hsecond
  unfold sizeDigits? sizeToken
  rw [leadingDigits?_decimal _ rfl]
  simp only [hsecond]

/-- A number is recognised behind its mark, and by no other rule. -/
theorem numbered?_numberToken (q : NumberQualifier) (v : UInt16) :
    densityDigits? (numberToken q v) = none ∧ sizeDigits? (numberToken q v) = none ∧
      numbered? (numberToken q v) = some ⟨q, Text.decimalChars v.toNat, q.inDp⟩ := by
  have hend : leadingDigits? (Text.decimalChars v.toNat ++ []) =
      some (Text.decimalChars v.toNat, []) := leadingDigits?_decimal v.toNat rfl
  have hdp : leadingDigits? (Text.decimalChars v.toNat ++ ['d', 'p']) =
      some (Text.decimalChars v.toNat, ['d', 'p']) := leadingDigits?_decimal v.toNat rfl
  rw [List.append_nil] at hend
  have hletter : ∀ (a : Char) (rest : List Char), Text.isDecimalDigit a = false →
      densityDigits? (a :: rest) = none ∧ sizeDigits? (a :: rest) = none := by
    intro a rest ha
    rw [densityDigits?, sizeDigits?, leadingDigits?_cons ha]
    exact ⟨rfl, rfl⟩
  refine and_assoc.mp ⟨?_, ?_⟩
  · cases q <;> exact hletter _ _ rfl
  · cases q <;>
      simp [numbered?, numberToken, NumberQualifier.all, NumberQualifier.mark,
        NumberQualifier.inDp, List.findSome?, List.isPrefixOf?, hend, hdp]

/-! ## Their meaning -/

theorem meaning_word {w : QualifierWord} (hw : w ∈ QualifierWord.all) (c : Config) :
    meaning c w.word.toList = .set (w.field.set w.value c) := by
  have hfind : ∀ w ∈ QualifierWord.all, QualifierWord.find? w.word.toList = some w := by
    decide +kernel
  unfold meaning
  rw [hfind w hw]

theorem meaning_densityName {d : String × UInt16} (hd : d ∈ densityNames) (c : Config) :
    meaning c d.1.toList = .set { c with density := d.2 } := by
  have hword : ∀ d ∈ densityNames, QualifierWord.find? d.1.toList = none := by decide +kernel
  have hfind : ∀ d ∈ densityNames,
      (densityNames.find? fun e => e.1.toList == d.1.toList) = some d := by decide +kernel
  unfold meaning
  rw [hword d hd]
  dsimp only
  rw [hfind d hd]

theorem meaning_density (c : Config) (density : UInt16) :
    meaning c (densityToken density) = .set { c with density := density } := by
  have hdigits := densityDigits?_densityToken density
  have hrule : hasDigits (densityToken density) = true := by
    rw [hasDigits, hdigits]
    rfl
  unfold meaning
  rw [find?_word_eq_none hrule]
  dsimp only
  rw [find?_densityName_eq_none hrule]
  dsimp only
  rw [hdigits]
  dsimp only
  rw [readNumber_decimal]
  rfl

theorem meaning_size (c : Config) (a b : UInt16) :
    meaning c (sizeToken a b) = .set { c with screenWidth := max a b, screenHeight := min a b } := by
  have hdigits := sizeDigits?_sizeToken a b
  have hrule : hasDigits (sizeToken a b) = true := by
    rw [hasDigits, hdigits]
    exact Bool.or_eq_true_iff.mpr (Or.inl (Bool.or_true _))
  have happly : applySize c (sizeToken a b) (Text.decimalChars a.toNat, Text.decimalChars b.toNat) =
      .ok { c with screenWidth := max a b, screenHeight := min a b } := by
    rw [applySize]
    dsimp only
    rw [readNumber_decimal, readNumber_decimal]
    rfl
  unfold meaning
  rw [find?_word_eq_none hrule]
  dsimp only
  rw [find?_densityName_eq_none hrule]
  dsimp only
  rw [densityDigits?_sizeToken, hdigits]
  dsimp only
  rw [happly]
  rfl

/-- What is applied for a number; the digits of the network code must not be zeros only. -/
theorem meaning_number (c : Config) {q : NumberQualifier} {v : UInt16} (hv : v ≠ 0) :
    meaning c (numberToken q v) = .set (q.set v c) := by
  obtain ⟨hdensity, hsize, hnumbered⟩ := numbered?_numberToken q v
  have hrule : hasDigits (numberToken q v) = true := by
    rw [hasDigits, hnumbered]
    exact Bool.or_true _
  have hzeros : ¬ (Text.decimalChars v.toNat).all (· == '0') = true := fun hall =>
    hv (UInt16.toNat_inj.mp (Text.readDecimal?_zeros hall (Text.readDecimal?_decimal v.toNat)))
  have happly : applyNumbered c (numberToken q v) ⟨q, Text.decimalChars v.toNat, q.inDp⟩ =
      .ok (q.set v c) := by
    rw [applyNumbered, if_neg (not_not_intro rfl), if_neg (fun h => hzeros h.2)]
    dsimp only
    rw [readNumber_decimal]
  unfold meaning
  rw [find?_word_eq_none hrule]
  dsimp only
  rw [find?_densityName_eq_none hrule]
  dsimp only
  rw [hdensity, hsize, hnumbered]
  dsimp only
  rw [happly]
  rfl

/-- The network code zero is read as the code that stands for it. -/
theorem meaning_zeroNetwork (c : Config) :
    meaning c "mnc00".toList = .set { c with mnc := zeroNetwork } := rfl

/-! ## Plain tokens -/

/-- A token that is split off whole, is left as it is by the change to small letters, and is
not mistaken for a region or a tag. -/
structure Plain (token : List Char) : Prop where
  /-- No dash splits it. -/
  dashless : '-' ∉ token
  /-- It has small letters. -/
  small : token.map Char.toLower = token
  /-- It is no region. -/
  noRegion : regionCode? token = none
  /-- It is no tag. -/
  untagged : ¬ ['b', '+'] <+: token

/-- The small letters, one after the other. -/
theorem exists_letter {a : Char} (ha : a.isLower = true) : ∃ k < 26, a = Char.ofNat (97 + k) := by
  obtain ⟨hfirst, hlast⟩ := Bool.and_eq_true_iff.mp ha
  have hlow : 97 ≤ a.toNat := UInt32.le_iff_toNat_le.mp (of_decide_eq_true hfirst)
  have hhigh : a.toNat ≤ 122 := UInt32.le_iff_toNat_le.mp (of_decide_eq_true hlast)
  refine ⟨a.toNat - 97, by omega, ?_⟩
  rw [show 97 + (a.toNat - 97) = a.toNat by omega, Char.ofNat_toNat]

theorem exists_digit {a : Char} (ha : a.isDigit = true) : ∃ k < 10, a = Char.ofNat (48 + k) := by
  simp only [Char.isDigit, Bool.and_eq_true, decide_eq_true_eq] at ha
  have hlow : 48 ≤ a.toNat := UInt32.le_iff_toNat_le.mp ha.1
  have hhigh : a.toNat ≤ 57 := UInt32.le_iff_toNat_le.mp ha.2
  refine ⟨a.toNat - 48, by omega, ?_⟩
  rw [show 48 + (a.toNat - 48) = a.toNat by omega, Char.ofNat_toNat]

/-- What holds of every digit and of every small letter. -/
theorem of_small {p : Char → Prop} {a : Char} (hdigit : ∀ k < 10, p (Char.ofNat (48 + k)))
    (hletter : ∀ k < 26, p (Char.ofNat (97 + k))) (h : (a.isDigit || a.isLower) = true) : p a := by
  cases Bool.or_eq_true_iff.mp h with
  | inl h =>
      obtain ⟨k, hk, rfl⟩ := exists_digit h
      exact hdigit k hk
  | inr h =>
      obtain ⟨k, hk, rfl⟩ := exists_letter h
      exact hletter k hk

theorem toLower_of_small {a : Char} : (a.isDigit || a.isLower) = true → a.toLower = a :=
  of_small (p := fun a => a.toLower = a) (by decide +kernel) (by decide +kernel)

/-- Whether all characters are digits and small letters. -/
def isSmall (token : List Char) : Bool :=
  token.all fun c => c.isDigit || c.isLower

theorem small_of_mem {a : Char} (h : isSmall token = true) (ha : a ∈ token) :
    (a.isDigit || a.isLower) = true :=
  List.all_eq_true.mp h a ha

theorem dashless_of_isSmall (h : isSmall token = true) : '-' ∉ token := by
  intro hmem
  exact absurd (small_of_mem h hmem) (by decide)

theorem untagged_of_isSmall (h : isSmall token = true) : ¬ ['b', '+'] <+: token := by
  rintro ⟨tag, rfl⟩
  have hplus := small_of_mem h (List.mem_cons_of_mem _ List.mem_cons_self)
  exact absurd hplus (by decide)

theorem map_toLower_of_isSmall (h : isSmall token = true) : token.map Char.toLower = token := by
  refine (List.map_congr_left fun a ha => ?_).trans (List.map_id token)
  exact toLower_of_small (small_of_mem h ha)

theorem regionCode?_cons {a : Char} (ha : a ≠ 'r') : regionCode? (a :: rest) = none := by
  unfold regionCode?
  split
  · next h => exact absurd (List.cons.inj h).1 ha
  · rfl

theorem eq_of_regionCode? {code : List Char} (h : regionCode? token = some code) :
    token = 'r' :: code := by
  unfold regionCode? at h
  split at h
  · split at h <;> cases h
    rfl
  · cases h

theorem plain_of_isSmall (h : isSmall token = true) (hr : regionCode? token = none) :
    Plain token :=
  ⟨dashless_of_isSmall h, map_toLower_of_isSmall h, hr, untagged_of_isSmall h⟩

theorem isSmall_append {first second : List Char} :
    isSmall (first ++ second) = (isSmall first && isSmall second) :=
  List.all_append

theorem isSmall_decimalChars (n : Nat) : isSmall (Text.decimalChars n) = true :=
  List.all_eq_true.mpr fun a ha => by
    rw [Text.isDigit_of_mem_decimalChars ha]
    rfl

theorem plain_word {w : QualifierWord} (hw : w ∈ QualifierWord.all) : Plain w.word.toList := by
  have hall : ∀ w ∈ QualifierWord.all,
      isSmall w.word.toList = true ∧ regionCode? w.word.toList = none := by decide +kernel
  exact plain_of_isSmall (hall w hw).1 (hall w hw).2

theorem plain_densityName {d : String × UInt16} (hd : d ∈ densityNames) : Plain d.1.toList := by
  have hall : ∀ d ∈ densityNames,
      isSmall d.1.toList = true ∧ regionCode? d.1.toList = none := by decide +kernel
  exact plain_of_isSmall (hall d hd).1 (hall d hd).2

/-- What starts with a number is no region. -/
theorem regionCode?_decimal (n : Nat) : regionCode? (Text.decimalChars n ++ rest) = none := by
  cases hn : Text.decimalChars n with
  | nil => exact absurd hn (Text.decimalChars_ne_nil n)
  | cons a cs =>
      have ha : a ∈ Text.decimalChars n := hn ▸ List.mem_cons_self
      refine regionCode?_cons fun heq => ?_
      have hdigit := Text.isDigit_of_mem_decimalChars ha
      rw [heq] at hdigit
      exact absurd hdigit (by decide)

theorem plain_densityToken (density : UInt16) : Plain (densityToken density) := by
  refine plain_of_isSmall ?_ (regionCode?_decimal _)
  rw [densityToken, isSmall_append, isSmall_decimalChars]
  rfl

theorem plain_sizeToken (a b : UInt16) : Plain (sizeToken a b) := by
  refine plain_of_isSmall ?_ (regionCode?_decimal _)
  rw [sizeToken, isSmall_append, isSmall_decimalChars]
  exact isSmall_decimalChars b.toNat

theorem plain_numberToken (q : NumberQualifier) (v : UInt16) : Plain (numberToken q v) := by
  refine plain_of_isSmall ?_ ?_
  · rw [numberToken, isSmall_append, isSmall_append, isSmall_decimalChars]
    cases q <;> rfl
  · cases q <;> exact regionCode?_cons (by decide)

/-! ## Languages and regions -/

theorem exists_two {token : List Char} {p : Char → Bool}
    (h : (token.length == 2 && token.all p) = true) :
    ∃ a b, token = [a, b] ∧ p a = true ∧ p b = true := by
  rw [Bool.and_eq_true, beq_iff_eq] at h
  obtain ⟨a, b, rfl⟩ := List.length_eq_two.mp h.1
  have hall := h.2
  simp only [List.all_cons, List.all_nil, Bool.and_true, Bool.and_eq_true] at hall
  exact ⟨a, b, rfl, hall⟩

theorem exists_three {token : List Char} {p : Char → Bool}
    (h : (token.length == 3 && token.all p) = true) :
    ∃ a b c, token = [a, b, c] ∧ p a = true ∧ p b = true ∧ p c = true := by
  rw [Bool.and_eq_true, beq_iff_eq] at h
  obtain ⟨a, b, c, rfl⟩ := List.length_eq_three.mp h.1
  have hall := h.2
  simp only [List.all_cons, List.all_nil, Bool.and_true, Bool.and_eq_true] at hall
  exact ⟨a, b, c, rfl, hall⟩

theorem isSmall_of_isLanguage {token : List Char} (h : isLanguage token = true) :
    isSmall token = true := by
  rw [isLanguage, Bool.and_eq_true] at h
  refine List.all_eq_true.mpr fun a ha => ?_
  rw [List.all_eq_true.mp h.2 a ha]
  exact Bool.or_true _

/-- The byte of a letter in a language. -/
def languageByte (a : Char) : UInt8 := Text.lowerByte (UInt8.ofNat a.toNat)

/-- The byte of a letter or digit in a region. -/
def regionByte (a : Char) : UInt8 := Text.upperByte (UInt8.ofNat a.toNat)

theorem languageByte_of_isLower {a : Char} (ha : a.isLower = true) :
    languageByte a ≠ 0 ∧ languageByte a < 0x80 ∧
      (0x61 ≤ languageByte a ∧ (languageByte a).toNat < (0x61 : UInt8).toNat + 32) ∧
        Char.ofNat (languageByte a).toNat = a := by
  obtain ⟨k, hk, rfl⟩ := exists_letter ha
  clear ha
  revert k
  decide +kernel

theorem regionByte_of_small {a : Char} : (a.isDigit || a.isLower) = true →
    regionByte a ≠ 0 ∧ regionByte a < 0x80 ∧ (Char.ofNat (regionByte a).toNat).toLower = a :=
  of_small
    (p := fun a => regionByte a ≠ 0 ∧ regionByte a < 0x80 ∧
      (Char.ofNat (regionByte a).toNat).toLower = a)
    (by decide +kernel) (by decide +kernel)

theorem regionByte_of_isDigit {a : Char} (ha : a.isDigit = true) :
    (0x30 ≤ regionByte a ∧ (regionByte a).toNat < (0x30 : UInt8).toNat + 32) ∧
      (Char.ofNat (regionByte a).toNat).toLower = a := by
  obtain ⟨k, hk, rfl⟩ := exists_digit ha
  clear ha
  revert k
  decide +kernel

/-- A language token is the text of the language that it sets. -/
theorem languageText_ofLanguage {token : List Char} (h : isLanguage token = true) :
    (Subtag.ofLanguage (Text.asciiBytes token)).isSet = true ∧
      (Subtag.ofLanguage (Text.asciiBytes token)).languageText = token := by
  rw [isLanguage, Bool.and_or_distrib_right, Bool.or_eq_true] at h
  rcases h with h | h
  · obtain ⟨a, b, rfl, ha, hb⟩ := exists_two h
    obtain ⟨hset, hascii, -, hatext⟩ := languageByte_of_isLower ha
    obtain ⟨-, -, -, hbtext⟩ := languageByte_of_isLower hb
    obtain ⟨hisSet, hunpack⟩ := Subtag.unpack_pack_two 0x61 _ (languageByte b) hset hascii
    refine ⟨hisSet, hunpack.trans ?_⟩
    show [Char.ofNat (languageByte a).toNat, Char.ofNat (languageByte b).toNat] = [a, b]
    rw [hatext, hbtext]
  · obtain ⟨a, b, c, rfl, ha, hb, hc⟩ := exists_three h
    obtain ⟨-, -, harange, hatext⟩ := languageByte_of_isLower ha
    obtain ⟨-, -, hbrange, hbtext⟩ := languageByte_of_isLower hb
    obtain ⟨-, -, hcrange, hctext⟩ := languageByte_of_isLower hc
    obtain ⟨hisSet, hunpack⟩ := Subtag.unpack_pack_three 0x61 _ _ _ harange hbrange hcrange
    refine ⟨hisSet, hunpack.trans ?_⟩
    show [Char.ofNat (languageByte a).toNat, Char.ofNat (languageByte b).toNat,
      Char.ofNat (languageByte c).toNat] = [a, b, c]
    rw [hatext, hbtext, hctext]

theorem shape_of_regionCode? {code : List Char} (h : regionCode? ('r' :: code) = some code) :
    ((code.length == 2 && code.all Char.isLower) ||
      (code.length == 3 && code.all Char.isDigit)) = true := by
  simp only [regionCode?] at h
  split at h
  · assumption
  · cases h

theorem isSmall_of_regionCode? {code : List Char} (h : regionCode? ('r' :: code) = some code) :
    isSmall ('r' :: code) = true := by
  have hshape := shape_of_regionCode? h
  simp only [Bool.or_eq_true, Bool.and_eq_true] at hshape
  refine List.all_eq_true.mpr fun a ha => ?_
  rcases List.mem_cons.mp ha with rfl | ha
  · rfl
  · rcases hshape with ⟨-, hall⟩ | ⟨-, hall⟩ <;> rw [List.all_eq_true.mp hall a ha]
    · exact Bool.or_true _
    · rfl

/-- Two letters and digits are, in small letters, the text of the region that they name. -/
theorem regionText_of_two {code : List Char} (hsmall : isSmall code = true)
    (htwo : code.length = 2) :
    (Subtag.ofRegion (Text.asciiBytes code)).isSet = true ∧
      (Subtag.ofRegion (Text.asciiBytes code)).regionText.map Char.toLower = code := by
  obtain ⟨a, b, rfl⟩ := List.length_eq_two.mp htwo
  have ha : (a.isDigit || a.isLower) = true := small_of_mem hsmall (by simp)
  have hb : (b.isDigit || b.isLower) = true := small_of_mem hsmall (by simp)
  obtain ⟨hset, hascii, hatext⟩ := regionByte_of_small ha
  obtain ⟨-, -, hbtext⟩ := regionByte_of_small hb
  obtain ⟨hisSet, hunpack⟩ := Subtag.unpack_pack_two 0x30 _ (regionByte b) hset hascii
  refine ⟨hisSet, (congrArg (List.map Char.toLower) hunpack).trans ?_⟩
  show [(Char.ofNat (regionByte a).toNat).toLower, (Char.ofNat (regionByte b).toNat).toLower] =
    [a, b]
  rw [hatext, hbtext]

/-- A region token is, in small letters, the text of the region that it sets. -/
theorem regionText_ofRegion {code : List Char} (h : regionCode? ('r' :: code) = some code) :
    (Subtag.ofRegion (Text.asciiBytes code)).isSet = true ∧
      (Subtag.ofRegion (Text.asciiBytes code)).regionText.map Char.toLower = code := by
  rcases Bool.or_eq_true_iff.mp (shape_of_regionCode? h) with htwo | h
  · have hsmall : isSmall code = true :=
      List.all_eq_true.mpr fun a ha =>
        small_of_mem (isSmall_of_regionCode? h) (List.mem_cons_of_mem _ ha)
    exact regionText_of_two hsmall (beq_iff_eq.mp (Bool.and_eq_true_iff.mp htwo).1)
  · obtain ⟨a, b, c, rfl, ha, hb, hc⟩ := exists_three h
    obtain ⟨harange, hatext⟩ := regionByte_of_isDigit ha
    obtain ⟨hbrange, hbtext⟩ := regionByte_of_isDigit hb
    obtain ⟨hcrange, hctext⟩ := regionByte_of_isDigit hc
    obtain ⟨hisSet, hunpack⟩ := Subtag.unpack_pack_three 0x30 _ _ _ harange hbrange hcrange
    refine ⟨hisSet, (congrArg (List.map Char.toLower) hunpack).trans ?_⟩
    show [(Char.ofNat (regionByte a).toNat).toLower, (Char.ofNat (regionByte b).toNat).toLower,
      (Char.ofNat (regionByte c).toNat).toLower] = [a, b, c]
    rw [hatext, hbtext, hctext]

end Qualifier

end AppResources
