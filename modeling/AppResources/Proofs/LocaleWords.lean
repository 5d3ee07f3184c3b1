import AppResources.Proofs.SubtagKinds
import AppResources.Proofs.SubtagWord

/-!
# The words of a tag

Reading a tag of letters and digits leaves a locale each of whose fields holds one word or
nothing: one subtag turns such a locale into another one, and so do all of them. From the
words of a locale its tag is read back.

## Main definitions

* `LocaleWords`: a word for every field of a locale, each with its shape.
* `LocaleWords.locale`: the locale with these words.
* `LocaleWords.parts`: the subtags of its tag.

## Main results

* `exists_words`: subtags of letters and digits behind a language name a locale with words.
* `foldl_readPart_parts`: the subtags of a locale with words name it.
-/

namespace AppResources

open Qualifier

/-! ## Words of a locale -/

/-- A word for every field of a locale; an empty one is missing. -/
structure LocaleWords where
  language : List Char
  script : List Char := []
  region : List Char := []
  variant : List Char := []
  numbering : List Char := []
  language_shape : isLanguage language = true
  script_shape : script ≠ [] → IsScriptWord script := by simp
  region_shape : region ≠ [] → IsRegionWord region := by simp
  variant_shape : variant ≠ [] → IsVariantWord variant := by simp
  numbering_shape : numbering ≠ [] → IsNumberingWord numbering := by simp

namespace LocaleWords

/-- The locale with these words. -/
def locale (w : LocaleWords) : Locale where
  language := .ofLanguage (Text.asciiBytes w.language)
  region := .ofRegion (Text.asciiBytes w.region)
  script := Locale.scriptOf (Text.asciiBytes w.script)
  variant := padded 8 (Text.asciiBytes w.variant)
  numbering := padded 8 (Text.asciiBytes w.numbering)

variable {part : List Char}

theorem isSmall_of_shape {word : List Char} (h : word ≠ [] → isSmall word = true) :
    isSmall word = true := by
  by_cases hnone : word = []
  · rw [hnone]
    rfl
  · exact h hnone

theorem small_script (w : LocaleWords) : isSmall w.script = true :=
  isSmall_of_shape fun h => (w.script_shape h).small

theorem small_variant (w : LocaleWords) : isSmall w.variant = true :=
  isSmall_of_shape fun h => (w.variant_shape h).small

theorem small_numbering (w : LocaleWords) : isSmall w.numbering = true :=
  isSmall_of_shape fun h => (w.numbering_shape h).small

/-! ### What is set -/

theorem language_isSet (w : LocaleWords) : w.locale.language.isSet = true :=
  (languageText_ofLanguage w.language_shape).1

theorem region_isSet (w : LocaleWords) : w.locale.region.isSet = !w.region.isEmpty := by
  by_cases h : w.region = []
  · rw [locale, h]
    rfl
  · rw [locale, (w.region_shape h).isSet]
    simp [h]

theorem script_isSet (w : LocaleWords) : w.locale.script.isSet = !w.script.isEmpty :=
  Qualifier.script_isSet w.small_script

theorem hasOwnScript (w : LocaleWords) : w.locale.hasOwnScript = !w.script.isEmpty := by
  rw [Locale.hasOwnScript, w.script_isSet]
  exact Bool.and_true _

theorem hasVariant (w : LocaleWords) : w.locale.hasVariant = !w.variant.isEmpty :=
  padded_zero_ne w.small_variant

theorem hasNumbering (w : LocaleWords) : w.locale.hasNumbering = !w.numbering.isEmpty :=
  padded_zero_ne w.small_numbering

/-- A language with or without a region and nothing else. -/
def IsBare (w : LocaleWords) : Prop := w.script = [] ∧ w.variant = [] ∧ w.numbering = []

theorem isBare_iff (w : LocaleWords) :
    (w.locale.hasOwnScript || w.locale.hasVariant || w.locale.hasNumbering) = false ↔
      w.IsBare := by
  rw [w.hasOwnScript, w.hasVariant, w.hasNumbering]
  simp [IsBare, and_assoc]

/-! ### Their texts -/

theorem languageText (w : LocaleWords) : w.locale.language.languageText = w.language :=
  (languageText_ofLanguage w.language_shape).2

theorem regionText (w : LocaleWords) : w.locale.region.regionText.map Char.toLower = w.region := by
  by_cases h : w.region = []
  · rw [locale, h]
    rfl
  · exact (w.region_shape h).text

theorem scriptText (w : LocaleWords) : w.locale.scriptText.map Char.toLower = w.script := by
  refine scriptText_of_isSmall w.small_script ?_
  by_cases h : w.script = []
  · simp [h]
  · exact Nat.le_of_eq (w.script_shape h).length

theorem variantText (w : LocaleWords) : w.locale.variantText = w.variant := by
  refine paddedText_of_isSmall w.small_variant ?_
  by_cases h : w.variant = []
  · simp [h]
  · have hlength := (w.variant_shape h).length
    omega

theorem numberingText (w : LocaleWords) : w.locale.numberingText = w.numbering := by
  refine paddedText_of_isSmall w.small_numbering ?_
  by_cases h : w.numbering = []
  · simp [h]
  · have hlength := (w.numbering_shape h).length
    omega

/-! ### Reading one more word -/

/-- A region replaces the one before. -/
def withRegion (w : LocaleWords) (word : List Char) (h : IsRegionWord word) : LocaleWords :=
  { w with region := word, region_shape := fun _ => h }

/-- A script replaces the one before. -/
def withScript (w : LocaleWords) (word : List Char) (h : IsScriptWord word) : LocaleWords :=
  { w with script := word, script_shape := fun _ => h }

theorem isVariantWord_overwrite {old : List Char} (h : IsVariantWord part)
    (hold : old ≠ [] → IsVariantWord old) :
    IsVariantWord (part ++ old.drop part.length) := by
  by_cases hnone : old.length ≤ part.length
  · rw [List.drop_eq_nil_of_le hnone, List.append_nil]
    exact h
  · have hword := hold (by rintro rfl; simp at hnone)
    have hlow := h.length
    have hhigh := hword.length
    constructor
    · rw [isSmall_append, h.small]
      refine List.all_eq_true.mpr ?_
      intro a ha
      exact small_of_mem hword.small (List.mem_of_mem_drop ha)
    · rw [List.length_append, List.length_drop]
      omega

/-- A variant covers the front of the one before. -/
def withVariant (w : LocaleWords) (word : List Char) (h : IsVariantWord word) : LocaleWords :=
  { w with
    variant := word ++ w.variant.drop word.length
    variant_shape := fun _ => isVariantWord_overwrite h w.variant_shape }

/-- A numbering system stands where none was before. -/
def withNumbering (w : LocaleWords) (word : List Char) (h : IsNumberingWord word) :
    LocaleWords :=
  { w with numbering := word, numbering_shape := fun _ => h }

theorem readBase_region (w : LocaleWords) {region : List Char} (hregion : IsRegionWord region)
    (hlength : part.length = 2 ∨ part.length = 3)
    (hsame : Subtag.ofRegion (Text.asciiBytes region) = Subtag.ofRegion (Text.asciiBytes part)) :
    w.locale.readBase (Text.asciiBytes part) =
      (.base, (w.withRegion region hregion).locale) := by
  have hkind : PartKind.of (Text.asciiBytes part) = .code := by
    rw [PartKind.of_eq_code_iff, Text.length_asciiBytes]
    exact hlength
  rw [Locale.readBase_code hkind, w.language_isSet, if_pos rfl, ← hsame]
  rfl

theorem readBase_script (w : LocaleWords) (h : IsScriptWord part) :
    w.locale.readBase (Text.asciiBytes part) = (.base, (w.withScript part h).locale) := by
  have hkind : PartKind.of (Text.asciiBytes part) = .script := by
    rw [PartKind.of_eq_script_iff, Text.length_asciiBytes]
    exact ⟨h.length, h.letter⟩
  exact Locale.readBase_script hkind

theorem readBase_variant (w : LocaleWords) (h : IsVariantWord part) :
    w.locale.readBase (Text.asciiBytes part) = (.base, (w.withVariant part h).locale) := by
  have hvariant : w.locale.variant.overwrite (Text.asciiBytes part) =
      (w.withVariant part h).locale.variant := by
    show LongSubtag.overwrite (padded 8 (Text.asciiBytes w.variant)) (Text.asciiBytes part) =
      padded 8 (Text.asciiBytes (part ++ w.variant.drop part.length))
    rw [overwrite_padded, map_lowerByte h.small, Text.length_asciiBytes]
    simp [Text.asciiBytes]
  have hkind : PartKind.of (Text.asciiBytes part) = .variant := by
    rw [PartKind.of_eq_variant_iff, Text.length_asciiBytes]
    rcases h.length with ⟨hfour, hdigit⟩ | ⟨hlow, hhigh⟩
    · exact ⟨by omega, by omega, fun _ => hdigit⟩
    · exact ⟨by omega, hhigh, by omega⟩
  rw [Locale.readBase_variant hkind, hvariant]
  rfl

theorem readExtension_numbering (w : LocaleWords) (h : IsNumberingWord part)
    (hnone : w.numbering = []) :
    w.locale.readExtension .numberingKey (Text.asciiBytes part) =
      (.extension .expectKey, (w.withNumbering part h).locale) := by
  have hnumbering : w.locale.numbering.overwrite (Text.asciiBytes part) =
      (w.withNumbering part h).locale.numbering := by
    show LongSubtag.overwrite (padded 8 (Text.asciiBytes w.numbering)) (Text.asciiBytes part) =
      padded 8 (Text.asciiBytes part)
    rw [overwrite_padded, map_lowerByte h.small, hnone]
    simp [Text.asciiBytes]
  have hlength : 3 ≤ (Text.asciiBytes part).length ∧ (Text.asciiBytes part).length ≤ 8 := by
    rw [Text.length_asciiBytes]
    exact h.length
  have hmissing : w.locale.hasNumbering = false := by
    rw [w.hasNumbering, hnone]
    rfl
  rw [Locale.readExtension_numbering hlength hmissing, hnumbering]
  rfl

/-- What a subtag of letters and digits does among language, script, region and variants. -/
theorem exists_readBase (w : LocaleWords) (h : isSmall part = true) :
    ∃ s w', w.locale.readBase (Text.asciiBytes part) = (s, locale w') := by
  by_cases hshort : part.length = 2 ∨ part.length = 3
  · obtain ⟨region, hregion, hsame⟩ := exists_regionWord h hshort
    exact ⟨.base, _, w.readBase_region hregion hshort hsame⟩
  by_cases hscript : part.length = 4 ∧ startsWithDigit part = false
  · exact ⟨.base, _, w.readBase_script ⟨h, hscript.1, hscript.2⟩⟩
  by_cases hvariant : (part.length = 4 ∧ startsWithDigit part = true) ∨
      (5 ≤ part.length ∧ part.length ≤ 8)
  · exact ⟨.base, _, w.readBase_variant ⟨h, hvariant⟩⟩
  -- no other subtag is kept
  · have hfour : part.length ≠ 4 := by
      intro hfour
      cases hdigit : startsWithDigit part with
      | false => exact hscript ⟨hfour, hdigit⟩
      | true => exact hvariant (Or.inl ⟨hfour, hdigit⟩)
    have hlong : ¬ (5 ≤ part.length ∧ part.length ≤ 8) := fun h => hvariant (Or.inr h)
    have hkind : PartKind.of (Text.asciiBytes part) = .other := by
      rw [PartKind.of_eq_other_iff, Text.length_asciiBytes]
      omega
    obtain ⟨s, -, hread⟩ := Locale.readBase_other (l := w.locale) hkind
    exact ⟨s, w, hread⟩

/-- Inside the extension only the value of the first numbering system is kept. -/
theorem exists_readExtension (w : LocaleWords) (s : ExtensionState) (h : isSmall part = true) :
    ∃ s' w', w.locale.readExtension s (Text.asciiBytes part) = (s', locale w') := by
  by_cases hkept : s = .numberingKey ∧ (3 ≤ part.length ∧ part.length ≤ 8) ∧ w.numbering = []
  · obtain ⟨rfl, hlength, hnone⟩ := hkept
    exact ⟨_, _, w.readExtension_numbering ⟨h, hlength⟩ hnone⟩
  · refine ⟨_, w, Prod.ext rfl (Locale.readExtension_snd ?_)⟩
    intro hs hlength
    rw [Text.length_asciiBytes] at hlength
    rw [w.hasNumbering]
    by_cases hnone : w.numbering = []
    · exact absurd ⟨hs, hlength, hnone⟩ hkept
    · simp [hnone]

/-- One subtag of letters and digits turns words into words. -/
theorem exists_readPart (w : LocaleWords) (s : TagState) (h : isSmall part = true) :
    ∃ s' w', Locale.readPart (s, w.locale) (Text.asciiBytes part) = (s', locale w') := by
  cases s with
  | base => exact w.exists_readBase h
  | extension s => exact w.exists_readExtension s h
  | ended => exact ⟨.ended, w, rfl⟩

/-- All subtags together turn words into words. -/
theorem exists_foldl_readPart {parts : List (List Char)} (w : LocaleWords) (s : TagState)
    (h : ∀ part ∈ parts, isSmall part = true) :
    ∃ s' w', (parts.map Text.asciiBytes).foldl Locale.readPart (s, w.locale) =
      (s', locale w') := by
  induction parts generalizing s w with
  | nil => exact ⟨s, w, rfl⟩
  | cons part parts ih =>
      obtain ⟨hpart, hparts⟩ := List.forall_mem_cons.mp h
      obtain ⟨s', w', hread⟩ := w.exists_readPart s hpart
      rw [List.map_cons, List.foldl_cons, hread]
      exact ih w' s' hparts

/-! ### The subtags of a locale -/

/-- A word behind others, if there is one. -/
def optional (word : List Char) : List (List Char) :=
  if word = [] then [] else [word]

/-- The subtags of the tag of a locale. -/
def parts (w : LocaleWords) : List (List Char) :=
  w.language :: (optional w.script ++ (optional w.region ++ (optional w.variant ++
    if w.numbering = [] then [] else ["u".toList, "nu".toList, w.numbering])))

theorem readPart_language (h : isLanguage part = true) :
    Locale.readPart (.base, {}) (Text.asciiBytes part) =
      (.base, locale { language := part, language_shape := h }) := by
  have hlength : part.length = 2 ∨ part.length = 3 := by
    rw [isLanguage, Bool.and_eq_true, Bool.or_eq_true, beq_iff_eq, beq_iff_eq] at h
    exact h.1
  have hkind : PartKind.of (Text.asciiBytes part) = .code := by
    rw [PartKind.of_eq_code_iff, Text.length_asciiBytes]
    exact hlength
  exact Locale.readBase_code hkind

section Fields

variable (v w : LocaleWords)

theorem readOptional_script (hv : v.script = []) :
    ((optional w.script).map Text.asciiBytes).foldl Locale.readPart (.base, v.locale) =
      (.base, locale { v with script := w.script, script_shape := w.script_shape }) := by
  by_cases h : w.script = []
  · simp [optional, locale, hv, h]
  · rw [optional, if_neg h]
    exact v.readBase_script (w.script_shape h)

theorem readOptional_region (hv : v.region = []) :
    ((optional w.region).map Text.asciiBytes).foldl Locale.readPart (.base, v.locale) =
      (.base, locale { v with region := w.region, region_shape := w.region_shape }) := by
  by_cases h : w.region = []
  · simp [optional, locale, hv, h]
  · rw [optional, if_neg h]
    exact v.readBase_region (w.region_shape h) (w.region_shape h).length rfl

theorem readOptional_variant (hv : v.variant = []) :
    ((optional w.variant).map Text.asciiBytes).foldl Locale.readPart (.base, v.locale) =
      (.base, locale { v with variant := w.variant, variant_shape := w.variant_shape }) := by
  by_cases h : w.variant = []
  · simp [optional, locale, hv, h]
  · rw [optional, if_neg h]
    refine (v.readBase_variant (w.variant_shape h)).trans ?_
    simp [withVariant, locale, hv]

/-- The numbering system is read behind its keyword. -/
theorem readPart_numbering (hv : v.numbering = []) (h : w.numbering ≠ []) :
    (["u".toList, "nu".toList, w.numbering].map Text.asciiBytes).foldl Locale.readPart
        (.base, v.locale) =
      (.extension .expectKey,
        locale { v with numbering := w.numbering, numbering_shape := w.numbering_shape }) :=
  v.readExtension_numbering (w.numbering_shape h) hv

end Fields

/-- The subtags of a locale with words name it. -/
theorem foldl_readPart_parts (w : LocaleWords) :
    ∃ s, (w.parts.map Text.asciiBytes).foldl Locale.readPart (.base, {}) = (s, w.locale) := by
  unfold parts
  rw [List.map_cons, List.foldl_cons, readPart_language w.language_shape]
  rw [List.map_append, List.foldl_append, readOptional_script _ w rfl]
  rw [List.map_append, List.foldl_append, readOptional_region _ w rfl]
  rw [List.map_append, List.foldl_append, readOptional_variant _ w rfl]
  by_cases h : w.numbering = []
  · rw [if_pos h]
    refine ⟨.base, ?_⟩
    simp [locale, h]
  · rw [if_neg h]
    exact ⟨_, readPart_numbering _ w rfl h⟩

end LocaleWords

/-- Subtags of letters and digits behind a language name a locale with words. -/
theorem exists_words {language : List Char} {rest : List (List Char)}
    (hlanguage : isLanguage language = true) (hrest : ∀ part ∈ rest, isSmall part = true) :
    ∃ s w, ((language :: rest).map Text.asciiBytes).foldl Locale.readPart (.base, {}) =
      (s, LocaleWords.locale w) := by
  rw [List.map_cons, List.foldl_cons, LocaleWords.readPart_language hlanguage]
  exact LocaleWords.exists_foldl_readPart _ _ hrest

end AppResources
