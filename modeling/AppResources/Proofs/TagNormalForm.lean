import AppResources.Proofs.WordFields

/-!
# The normal form of a tag

A tag of letters and digits leaves a locale each of whose fields is empty or was read from a word:
one subtag turns such a locale into another one, and so do all of them. Printed as a tag, such a
locale consists of the texts of its fields, and read one after the other these fill in the same
fields again. The script that is filled in is not printed, and it is filled in again. So the tag
of a locale is its normal form.

## Main definitions

* `Locale.OfWords`: a locale whose fields are empty or were read from words.

## Main results

* `OfWords.readPart`, `OfWords.foldl_readPart`: words leave locales of words.
* `OfWords.foldl_readPart_tagParts`: the subtags of the tag of such a locale name it.
* `withTag_tag`: a configuration is left as it is by its own tag.
-/

namespace AppResources

namespace Locale

open Text

variable {l : Locale} {part : List UInt8} {parts : List (List UInt8)}

/-! ## Locales of words -/

/-- A locale whose fields are empty or were read from words. -/
structure OfWords (l : Locale) : Prop where
  language : ReadFromWord (PartKind.of · = .code) Subtag.ofLanguage .none l.language
  region : ReadFromWord (PartKind.of · = .code) Subtag.ofRegion .none l.region
  region_behind : l.region.isSet = true → l.language.isSet = true
  script : ReadFromWord (PartKind.of · = .script) scriptOf Script.none l.script
  variant :
    ReadFromWord (PartKind.of · = .variant) longOf (Vector.replicate 8 0) l.variant
  numbering : ReadFromWord IsNumbering longOf (Vector.replicate 8 0) l.numbering
  scriptComputed : l.scriptComputed = false

theorem ofWords_empty : OfWords {} :=
  ⟨Or.inl rfl, Or.inl rfl, fun h => h, Or.inl rfl, Or.inl rfl, Or.inl rfl, rfl⟩

theorem OfWords.readBase (h : l.OfWords) (hword : IsWord part) : (l.readBase part).2.OfWords := by
  cases hkind : PartKind.of part with
  | code =>
      rw [readBase_code hkind]
      by_cases hset : l.language.isSet = true
      · rw [if_pos hset]
        exact { h with
          region := Or.inr ⟨part, hword, hkind, rfl⟩
          region_behind := fun _ => hset }
      · rw [if_neg hset]
        exact { h with
          language := Or.inr ⟨part, hword, hkind, rfl⟩
          region_behind := fun hregion => absurd (h.region_behind hregion) hset }
  | script =>
      rw [readBase_script hkind]
      exact { h with script := Or.inr ⟨part, hword, hkind, rfl⟩ }
  | variant =>
      rw [readBase_variant hkind]
      exact { h with
        variant := readFromWord_overwrite h.variant hword hkind fun _ => of_variant_append hkind }
  | other =>
      obtain ⟨s, -, hread⟩ := readBase_other (l := l) hkind
      rw [hread]
      exact h

theorem OfWords.readExtension (h : l.OfWords) (hword : IsWord part) (s : ExtensionState) :
    (l.readExtension s part).2.OfWords := by
  obtain hsame | ⟨-, hlow, hhigh, hread⟩ := l.readExtension_cases s part
  · rw [hsame]
    exact h
  · rw [hread]
    refine { h with
      numbering := readFromWord_overwrite h.numbering hword ⟨hlow, hhigh⟩ fun old hold => ?_ }
    obtain ⟨-, hold⟩ := hold
    rw [IsNumbering, List.length_append, List.length_drop]
    omega

/-- One more word leaves a locale of words. -/
theorem OfWords.readPart (h : l.OfWords) (hword : IsWord part) (s : TagState) :
    (Locale.readPart (s, l) part).2.OfWords := by
  cases s with
  | base => exact h.readBase hword
  | extension s => exact h.readExtension hword s
  | ended => exact h

/-- Words leave a locale of words. -/
theorem OfWords.foldl_readPart (h : l.OfWords) (hwords : ∀ part ∈ parts, IsWord part)
    (s : TagState) : (parts.foldl Locale.readPart (s, l)).2.OfWords := by
  induction parts generalizing s l with
  | nil => exact h
  | cons part parts ih =>
      obtain ⟨hpart, hparts⟩ := List.forall_mem_cons.mp hwords
      exact ih (h.readPart hpart s) hparts _

/-! ## The subtags of a locale of words -/

section Printing

variable (h : l.OfWords)

include h

theorem OfWords.hasOwnScript : l.hasOwnScript = l.script.isSet := by
  rw [Locale.hasOwnScript, h.scriptComputed]
  exact Bool.and_true _

theorem OfWords.prints_language :
    Prints (PartKind.of · = .code) Subtag.ofLanguage .none l.language l.language.isSet
      l.language.languageText :=
  h.language.prints Subtag.isSet Subtag.languageText rfl fun _ => Subtag.spells_language

theorem OfWords.prints_region :
    Prints (PartKind.of · = .code) Subtag.ofRegion .none l.region l.region.isSet
      l.region.regionText :=
  h.region.prints Subtag.isSet Subtag.regionText rfl fun _ => Subtag.spells_region

theorem OfWords.prints_script :
    Prints (PartKind.of · = .script) scriptOf Script.none l.script l.script.isSet l.scriptText :=
  h.script.prints Script.isSet (fun s => paddedText s.toList) rfl fun _ => spells_script

theorem OfWords.prints_variant :
    Prints (PartKind.of · = .variant) longOf (Vector.replicate 8 0) l.variant l.hasVariant
      l.variantText := by
  refine h.variant.prints (fun v => v[0] != 0) (fun v => paddedText v.toList) rfl
    fun part hword hkind => ?_
  have hlength := PartKind.of_eq_variant_iff.mp hkind
  refine spells_long hword ?_ hlength.2.1 ((of_map_lowerByte hword).trans hkind)
  rintro rfl
  exact absurd hlength.1 (by decide)

theorem OfWords.prints_numbering :
    Prints IsNumbering longOf (Vector.replicate 8 0) l.numbering l.hasNumbering
      l.numberingText := by
  refine h.numbering.prints (fun v => v[0] != 0) (fun v => paddedText v.toList) rfl
    fun part hword hlength => ?_
  refine spells_long hword ?_ hlength.2 (by rwa [IsNumbering, List.length_map])
  rintro rfl
  exact absurd hlength.1 (by decide)

/-- The tag of a locale of words, field by field. -/
theorem OfWords.tagParts_eq :
    l.tagParts false =
      subtagsFor l.language.isSet l.language.languageText ++
        subtagsFor l.script.isSet l.scriptText ++ subtagsFor l.region.isSet l.region.regionText ++
          subtagsFor l.hasVariant l.variantText ++
            if l.hasNumbering then ["u".toList, "nu".toList, l.numberingText] else [] := by
  rw [tagParts, h.hasOwnScript]
  rfl

end Printing

/-- A subtag is read if its field is set. -/
theorem foldl_subtagsFor {l' : Locale} {set : Bool} {text : List Char}
    (hmissing : set = false → l' = l)
    (hread : set = true → l.readBase (asciiBytes text) = (.base, l')) :
    ((subtagsFor set text).map asciiBytes).foldl Locale.readPart (.base, l) = (.base, l') := by
  cases set with
  | false =>
      rw [hmissing rfl]
      rfl
  | true => exact hread rfl

section Reading

variable (h : l.OfWords)

include h

theorem OfWords.read_language :
    ((subtagsFor l.language.isSet l.language.languageText).map asciiBytes).foldl Locale.readPart
      (.base, {}) = (.base, { language := l.language }) := by
  refine foldl_subtagsFor (fun hunset => ?_) fun hset => ?_
  · rw [h.prints_language.missing hunset]
  · have hspells := h.prints_language.spells hset
    rw [readBase_code hspells.shape, hspells.read]
    rfl

theorem OfWords.read_script :
    ((subtagsFor l.script.isSet l.scriptText).map asciiBytes).foldl Locale.readPart
      (.base, { language := l.language }) =
        (.base, { language := l.language, script := l.script }) := by
  refine foldl_subtagsFor (fun hunset => ?_) fun hset => ?_
  · rw [h.prints_script.missing hunset]
  · have hspells := h.prints_script.spells hset
    rw [readBase_script hspells.shape, hspells.read]

/-- A code behind the language is the region. -/
theorem OfWords.read_region :
    ((subtagsFor l.region.isSet l.region.regionText).map asciiBytes).foldl Locale.readPart
      (.base, { language := l.language, script := l.script }) =
        (.base, { language := l.language, script := l.script, region := l.region }) := by
  refine foldl_subtagsFor (fun hunset => ?_) fun hset => ?_
  · rw [h.prints_region.missing hunset]
  · have hspells := h.prints_region.spells hset
    rw [readBase_code hspells.shape, if_pos (h.region_behind hset), hspells.read]

theorem OfWords.read_variant :
    ((subtagsFor l.hasVariant l.variantText).map asciiBytes).foldl Locale.readPart
      (.base, { language := l.language, script := l.script, region := l.region }) =
        (.base, { l with numbering := Vector.replicate 8 0 }) := by
  refine foldl_subtagsFor (fun hunset => ?_) fun hset => ?_
  · rw [h.prints_variant.missing hunset, h.scriptComputed]
  · have hspells := h.prints_variant.spells hset
    rw [readBase_variant hspells.shape, overwrite_empty, hspells.read, h.scriptComputed]

/-- The subtags of a locale of words name it. -/
theorem OfWords.foldl_readPart_tagParts :
    ∃ s, ((l.tagParts false).map asciiBytes).foldl Locale.readPart (.base, {}) = (s, l) := by
  rw [h.tagParts_eq]
  simp only [List.map_append, List.foldl_append, h.read_language, h.read_script, h.read_region,
    h.read_variant]
  by_cases hset : l.hasNumbering = true
  · have hspells := h.prints_numbering.spells hset
    rw [if_pos hset]
    refine ⟨.extension .expectKey, ?_⟩
    refine (readExtension_numbering hspells.shape rfl).trans ?_
    rw [overwrite_empty, hspells.read]
  · rw [if_neg hset, ← h.prints_numbering.missing (Bool.eq_false_iff.mpr hset)]
    exact ⟨.base, rfl⟩

end Reading

/-! ## Printing and reading -/

theorem OfWords.plain_tagParts (h : l.OfWords) :
    ∀ text ∈ l.tagParts false, IsAscii text ∧ '-' ∉ text := by
  have hnumbering : ∀ t ∈ (if l.hasNumbering = true then
      ["u".toList, "nu".toList, l.numberingText] else []), IsAscii t ∧ '-' ∉ t := by
    by_cases hset : l.hasNumbering = true
    · have hspells := h.prints_numbering.spells hset
      rw [if_pos hset]
      simp only [List.forall_mem_cons]
      exact ⟨⟨Qualifier.isAscii_of_isSmall rfl, Qualifier.dashless_of_isSmall rfl⟩,
        ⟨Qualifier.isAscii_of_isSmall rfl, Qualifier.dashless_of_isSmall rfl⟩,
        ⟨hspells.ascii, hspells.dashless⟩, by simp⟩
    · rw [if_neg hset]
      simp
  rw [h.tagParts_eq]
  simp only [List.forall_mem_append]
  exact ⟨⟨⟨⟨h.prints_language.plain, h.prints_script.plain⟩, h.prints_region.plain⟩,
    h.prints_variant.plain⟩, hnumbering⟩

/-- The tag of a locale of words is read as its subtags. -/
theorem OfWords.ofTag_tag (h : l.OfWords) :
    ofTag (l.tag false) = ofParts ((l.tagParts false).map asciiBytes) := by
  have hplain := h.plain_tagParts
  by_cases hnone : l.tagParts false = []
  · rw [tag, hnone]
    decide
  · rw [ofTag, tag,
      splitOn_dashed (fun t ht => (hplain t ht).1) (fun t ht => (hplain t ht).2) hnone]

/-- The script that is filled in is not printed. -/
theorem tagParts_filled (l : Locale) (canonical : Bool) :
    (if l.script.isSet then l else { l.computeScript with scriptComputed := true }).tagParts
      canonical = l.tagParts canonical := by
  by_cases hset : l.script.isSet = true
  · rw [if_pos hset]
  · have hown : l.hasOwnScript = false := by
      rw [hasOwnScript, Bool.eq_false_iff.mpr hset]
      rfl
    have hfilled : { l.computeScript with scriptComputed := true : Locale }.hasOwnScript = false :=
      Bool.and_false _
    rw [if_neg hset, tagParts, hfilled, tagParts, hown]
    rfl

/-- The tag of what a tag of letters and digits leaves names it. -/
theorem ofTag_tag_ofTag {tag : String} (h : LettersAndDigits tag) :
    ofTag ((ofTag tag).tag false) = ofTag tag := by
  have hwords : ((subtags tag).foldl Locale.readPart (.base, {})).2.OfWords :=
    ofWords_empty.foldl_readPart h .base
  obtain ⟨s, hread⟩ := hwords.foldl_readPart_tagParts
  have hparts : (ofTag tag).tagParts false =
      ((subtags tag).foldl Locale.readPart (.base, {})).2.tagParts false :=
    tagParts_filled _ false
  rw [Locale.tag, hparts]
  refine hwords.ofTag_tag.trans ?_
  rw [ofParts, hread]
  rfl

end Locale

namespace Config

/-- A configuration with the locale of a tag of letters and digits is left as it is by its own
tag. -/
theorem withTag_tag (c : Config) (tag : String) (h : Locale.LettersAndDigits tag) :
    (c.withTag tag).withTag ((c.withTag tag).locale.tag false) = c.withTag tag :=
  congrArg (fun l => { c with locale := l }) (Locale.ofTag_tag_ofTag h)

/-- A code with a digit in it, two variants, a keyword that is not kept and an empty subtag. -/
theorem withTag_tag_mixed :
    let c := ({} : Config).withTag "q1Z-419-ROZAJ-1994-u-co-phonebk-nu-Latn-"
    c.withTag (c.locale.tag false) = c :=
  withTag_tag {} _ (by decide +kernel)

end Config

end AppResources
