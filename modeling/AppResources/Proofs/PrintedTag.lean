import AppResources.Proofs.LocaleWords
import AppResources.Proofs.QualifierRoundTrip

/-!
# Tags in qualifiers

Behind `b+` stands a tag with plus signs in place of dashes. Its bytes fall apart into those of
its subtags, and so it is read as these are; a script that reading fills in is left out again.
What is printed as a tag consists of the words of the locale and is read back.

## Main definitions

* `Qualifier.Unmatched`: a token that is no word and no number.

## Main results

* `taggedLocale_of_words`: what a tag leaves when its subtags name a locale with words.
* `meaning_tag`: the meaning of a tag.
* `readBack_of_tag`: what is printed as a tag is read back.
-/

namespace AppResources

namespace Qualifier

variable {c : Config} {token : List Char} {parts : List (List Char)}

/-! ## Reading a tag -/

/-- The bytes of a tag fall apart into those of its subtags. -/
theorem splitOn_dashed (hparts : ∀ part ∈ parts, Separable part) (hne : parts ≠ []) :
    (Text.utf8Bytes (String.ofList ((['+'].intercalate parts).map
      fun a => if a = '+' then '-' else a))).splitOn 0x2d = parts.map Text.asciiBytes := by
  have hsame : parts.map (·.map fun a => if a = '+' then '-' else a) = parts := by
    refine (List.map_congr_left ?_).trans (List.map_id parts)
    intro part hpart
    refine (List.map_congr_left ?_).trans (List.map_id part)
    intro a ha
    refine if_neg ?_
    rintro rfl
    exact (hparts part hpart).plusless ha
  have hdashed : (['+'].intercalate parts).map (fun a => if a = '+' then '-' else a) =
      ['-'].intercalate parts := by
    rw [Text.map_intercalate, hsame]
    rfl
  rw [hdashed]
  exact Text.splitOn_dashed (fun part hpart => (hparts part hpart).ascii)
    (fun part hpart => (hparts part hpart).dashless) hne

/-- What a tag leaves when its subtags name a locale with words: a script that would be filled
in is left out. -/
theorem taggedLocale_of_words {w : LocaleWords} {s : TagState}
    (hparts : ∀ part ∈ parts, Separable part) (hne : parts ≠ [])
    (hread : (parts.map Text.asciiBytes).foldl Locale.readPart (.base, {}) = (s, w.locale)) :
    taggedLocale (['+'].intercalate parts) = w.locale := by
  have htag : Locale.ofTag (String.ofList ((['+'].intercalate parts).map
      fun a => if a = '+' then '-' else a)) =
      if w.locale.script.isSet then w.locale
      else { w.locale.computeScript with scriptComputed := true } := by
    rw [Locale.ofTag, splitOn_dashed hparts hne, Locale.ofParts, hread]
  unfold taggedLocale
  dsimp only
  rw [htag]
  by_cases h : w.script = []
  · have hnone : w.locale.script = Script.none := by
      rw [LocaleWords.locale, h]
      rfl
    have hunset : w.locale.script.isSet = false := by
      rw [hnone]
      rfl
    rw [hunset]
    show { w.locale with script := Script.none } = w.locale
    rw [← hnone]
  · have hset : w.locale.script.isSet = true := by
      rw [w.script_isSet]
      simpa using h
    rw [hset]
    rfl

/-- A token that is no word and no number of any kind. -/
structure Unmatched (token : List Char) : Prop where
  word : QualifierWord.find? token = none
  name : (densityNames.find? fun d => d.1.toList == token) = none
  digits : leadingDigits? token = none
  number : numbered? token = none

/-- Such a token is a tag or a language, or it is refused. -/
theorem meaning_of_unmatched (c : Config) : Unmatched token →
    meaning c token =
      match token with
      | 'b' :: '+' :: tag => .set { c with locale := taggedLocale tag }
      | _ =>
        if !c.locale.language.isSet && isLanguage token then
          .language { c with locale.language := .ofLanguage (Text.asciiBytes token) }
        else .refused (.unknown (String.ofList token)) := by
  intro h
  have hdensity : densityDigits? token = none := by rw [densityDigits?, h.digits]
  have hsize : sizeDigits? token = none := by rw [sizeDigits?, h.digits]
  unfold meaning
  rw [h.word]
  dsimp only
  rw [h.name]
  dsimp only
  rewrite [hdensity, hsize, h.number]
  rfl

theorem unmatched_tag (tag : List Char) : Unmatched ('b' :: '+' :: tag) where
  word := by
    refine List.find?_eq_none.mpr ?_
    intro w hw heq
    have huntagged := (plain_word hw).untagged
    rw [beq_iff_eq.mp heq] at huntagged
    exact huntagged ⟨tag, rfl⟩
  name := by
    refine List.find?_eq_none.mpr ?_
    intro d hd heq
    have huntagged := (plain_densityName hd).untagged
    rw [beq_iff_eq.mp heq] at huntagged
    exact huntagged ⟨tag, rfl⟩
  digits := leadingDigits?_cons rfl
  number := by
    simp [numbered?, NumberQualifier.all, NumberQualifier.mark, List.isPrefixOf?]

theorem meaning_tag (c : Config) (tag : List Char) :
    meaning c ('b' :: '+' :: tag) = .set { c with locale := taggedLocale tag } :=
  meaning_of_unmatched c (unmatched_tag tag)

/-! ## Printing a tag -/

theorem lowered_optional {word text : List Char} (h : text.map Char.toLower = word) :
    lowered (if (!word.isEmpty) = true then [text] else []) = LocaleWords.optional word := by
  by_cases hnone : word = []
  · simp [LocaleWords.optional, lowered, hnone]
  · simp [LocaleWords.optional, lowered, hnone, h]

/-- What is printed as a tag consists of the words in it. -/
theorem lowered_tag {w : LocaleWords} (h : ¬ w.IsBare) :
    lowered w.locale.qualifiers = ['b' :: '+' :: ['+'].intercalate w.parts] := by
  have hbare : (w.locale.hasOwnScript || w.locale.hasVariant || w.locale.hasNumbering) = true :=
    eq_true_of_ne_false fun hnone => h (w.isBare_iff.mp hnone)
  have hvariant : w.locale.variantText.map Char.toLower = w.variant := by
    rw [w.variantText]
    exact map_toLower_of_isSmall w.small_variant
  have hnumbering : lowered (if (!w.numbering.isEmpty) = true then
        ["u".toList, "nu".toList, w.locale.numberingText] else []) =
      if w.numbering = [] then [] else ["u".toList, "nu".toList, w.numbering] := by
    rw [w.numberingText]
    by_cases hnone : w.numbering = []
    · simp [hnone, lowered]
    · simp only [hnone, List.isEmpty_eq_false_iff.mpr hnone, Bool.not_false, if_true, if_false]
      show [_, _, w.numbering.map Char.toLower] = _
      rw [map_toLower_of_isSmall w.small_numbering]
      rfl
  have hlanguage : lowered [w.locale.language.languageText] = [w.language] := by
    rw [w.languageText]
    exact congrArg (fun t => [t]) (map_toLower_of_isSmall (isSmall_of_isLanguage w.language_shape))
  unfold Locale.qualifiers
  rw [w.language_isSet, hbare, if_neg (by decide), if_pos rfl]
  dsimp only
  show ['b' :: '+' :: (['+'].intercalate _).map Char.toLower] = _
  rw [Text.map_intercalate]
  show ['b' :: '+' :: ['+'].intercalate (lowered _)] = _
  rw [w.hasOwnScript, w.region_isSet, w.hasVariant, w.hasNumbering]
  rw [lowered_append, lowered_append, lowered_append, lowered_append, lowered_optional w.scriptText,
    lowered_optional w.regionText, lowered_optional hvariant, hnumbering, hlanguage]
  simp only [List.append_assoc]
  rfl

theorem separable_optional {word : List Char} (h : word ≠ [] → Separable word) :
    ∀ part ∈ LocaleWords.optional word, Separable part := by
  unfold LocaleWords.optional
  by_cases hnone : word = []
  · simp [hnone]
  · simpa [hnone] using h hnone

theorem separable_parts (w : LocaleWords) : ∀ part ∈ w.parts, Separable part := by
  have hnumbering : ∀ part ∈ (if w.numbering = [] then []
      else ["u".toList, "nu".toList, w.numbering]), Separable part := by
    by_cases hnone : w.numbering = []
    · simp [hnone]
    · rw [if_neg hnone]
      rw [List.forall_mem_cons, List.forall_mem_cons, List.forall_mem_singleton]
      exact ⟨separable_of_isSmall rfl, separable_of_isSmall rfl,
        separable_of_isSmall w.small_numbering⟩
  unfold LocaleWords.parts
  rw [List.forall_mem_cons]
  simp only [List.forall_mem_append]
  exact ⟨separable_of_isSmall (isSmall_of_isLanguage w.language_shape),
    separable_optional fun _ => separable_of_isSmall w.small_script,
    separable_optional fun h => (w.region_shape h).separable,
    separable_optional fun _ => separable_of_isSmall w.small_variant, hnumbering⟩

/-- What is printed as a tag is read back, whatever follows. -/
theorem readBack_of_tag {w : LocaleWords} (h : ¬ w.IsBare) : ReadBack w.locale where
  dashless := by
    have hseparable := separable_parts w
    have htag : ∀ a ∈ ['+'].intercalate w.parts, a ≠ '-' :=
      Text.forall_mem_intercalate (by decide) fun part hpart a ha heq =>
        (hseparable part hpart).dashless (heq ▸ ha)
    rw [lowered_tag h, List.forall_mem_singleton]
    intro hdash
    simp only [List.mem_cons] at hdash
    rcases hdash with hdash | hdash | hdash
    · exact absurd hdash (by decide)
    · exact absurd hdash (by decide)
    · exact htag '-' hdash rfl
  parse d rest _ _ := by
    obtain ⟨s, hread⟩ := w.foldl_readPart_parts
    have htag : taggedLocale (['+'].intercalate w.parts) = w.locale :=
      taggedLocale_of_words (separable_parts w) (List.cons_ne_nil _ _) hread
    rw [lowered_tag h]
    have hmeaning := meaning_tag d (['+'].intercalate w.parts)
    rw [htag] at hmeaning
    exact parseTokens_set hmeaning

end Qualifier

end AppResources
