import AppResources.Proofs.PrintedTag

/-!
# Tags are read back from their print

A locale with a script, a variant or a numbering system is printed as a tag again. A locale
with a language and a region only is printed as two qualifiers, whatever they are: but the
language `car` is the word for a device, and a region can have a text that no region qualifier
has. Where this is not so, a configuration with a tag is read back from its text, and nowhere
else.

## Main definitions

* `Locale.HasQualifiers`: a locale whose language and region have qualifiers of their own.
* `Qualifier.WellFormedTag`: a language with subtags of letters and digits behind it.
* `Config.LastTag`: the last tag of a text.

## Main results

* `spoken_of_hasQualifiers` and `hasQualifiers_of_spoken`: when a language and a region are
  read back.
* `exists_words_of_lastTag`: a well-formed last tag decides the locale.
* `ofQualifiers_text_iff`: when a configuration with a tag is read back from its text.
-/

namespace AppResources

namespace Qualifier

variable {c c' d : Config} {tag token : List Char} {after tokens : List (List Char)}

/-! ## A language and a region only -/

theorem leadingDigits?_of_letters (h : token.all Char.isLower = true) :
    leadingDigits? token = none := by
  cases token with
  | nil => rfl
  | cons a token =>
      have ha : a.isLower = true := List.all_eq_true.mp h a List.mem_cons_self
      obtain ⟨k, hk, rfl⟩ := exists_letter ha
      refine leadingDigits?_cons ?_
      clear h ha
      revert k
      decide +kernel

/-- Of two or three letters only `car` is a word. -/
theorem unmatched_language (h : isLanguage token = true) (hcar : token ≠ "car".toList) :
    Unmatched token := by
  have hletters : token.all Char.isLower = true := (Bool.and_eq_true_iff.mp h).2
  refine ⟨?_, ?_, leadingDigits?_of_letters hletters, ?_⟩
  · have hall : ∀ w ∈ QualifierWord.all, isLanguage w.word.toList = true →
        w.word.toList = "car".toList := by decide +kernel
    refine List.find?_eq_none.mpr ?_
    intro w hw heq
    rw [← beq_iff_eq.mp heq] at h hcar
    exact hcar (hall w hw h)
  · have hall : ∀ d ∈ densityNames, isLanguage d.1.toList = false := by decide +kernel
    refine List.find?_eq_none.mpr ?_
    intro d hd heq
    rw [← beq_iff_eq.mp heq, hall d hd] at h
    cases h
  · refine List.findSome?_eq_none_iff.mpr ?_
    intro q _
    cases hrest : q.mark.toList.isPrefixOf? token with
    | none => rfl
    | some rest =>
        -- no digits follow the mark
        rw [← List.isPrefixOf?_eq_some_iff_append_eq.mp hrest, List.all_append,
          Bool.and_eq_true] at hletters
        dsimp only
        rw [leadingDigits?_of_letters hletters.2]

theorem speaks_of_isLanguage (h : isLanguage token = true) (hcar : token ≠ "car".toList) :
    Speaks token := by
  refine ⟨h, ?_⟩
  intro c hunset
  rw [meaning_of_unmatched c (unmatched_language h hcar)]
  split
  · next tag => exact absurd (Bool.and_eq_true_iff.mp h).2 (by simp)
  · rw [hunset, h]
    rfl

theorem not_speaks_car : ¬ Speaks "car".toList := by
  intro h
  have hlanguage := h.meaning_eq Config.default rfl
  have hword := meaning_word (w := ⟨"car", .deviceKind, 0x03⟩) (by decide) Config.default
  rw [hlanguage] at hword
  cases hword

/-- Whether a text is that of a region with a qualifier of its own: two letters or three
digits. -/
def isRegionText (text : List Char) : Bool :=
  (text.length == 2 && text.all Char.isAlpha) || (text.length == 3 && text.all Char.isDigit)

/-- A letter in capitals, or a character that the change to small letters leaves as it is. -/
theorem upper_or_fixed (a : Char) :
    (∃ k < 26, a = Char.ofNat (65 + k)) ∨ (a.isUpper = false ∧ a.toLower = a) := by
  by_cases h : a.isUpper = true
  · refine Or.inl ⟨a.toNat - 65, ?_⟩
    have hrange := of_decide_eq_true h
    have hlow : 65 ≤ a.toNat := UInt32.le_iff_toNat_le.mp hrange.1
    have hhigh : a.toNat ≤ 90 := UInt32.le_iff_toNat_le.mp hrange.2
    rw [show 65 + (a.toNat - 65) = a.toNat by omega, Char.ofNat_toNat]
    exact ⟨by omega, rfl⟩
  · refine Or.inr ⟨Bool.eq_false_iff.mpr h, dif_neg ?_⟩
    intro hrange
    exact h (decide_eq_true hrange)

theorem isLower_toLower (a : Char) : a.toLower.isLower = a.isAlpha := by
  rcases upper_or_fixed a with ⟨k, hk, rfl⟩ | ⟨hupper, hsame⟩
  · revert k
    decide +kernel
  · rw [hsame]
    show a.isLower = (a.isUpper || a.isLower)
    rw [hupper, Bool.false_or]

theorem isDigit_toLower (a : Char) : a.toLower.isDigit = a.isDigit := by
  rcases upper_or_fixed a with ⟨k, hk, rfl⟩ | ⟨hupper, hsame⟩
  · revert k
    decide +kernel
  · rw [hsame]

theorem regionCode?_toLower (text : List Char) :
    regionCode? ('r' :: text.map Char.toLower) =
      if isRegionText text then some (text.map Char.toLower) else none := by
  have hlower : (text.map Char.toLower).all Char.isLower = text.all Char.isAlpha := by
    rw [List.all_map]
    exact congrArg text.all (funext isLower_toLower)
  have hdigit : (text.map Char.toLower).all Char.isDigit = text.all Char.isDigit := by
    rw [List.all_map]
    exact congrArg text.all (funext isDigit_toLower)
  rw [regionCode?, List.length_map, hlower, hdigit]
  rfl

end Qualifier

/-- A locale whose language and region have qualifiers of their own: the language is not the
word `car`, and a region is two letters or three digits. -/
structure Locale.HasQualifiers (l : Locale) : Prop where
  language : l.language.languageText ≠ "car".toList
  region : l.region.isSet = true → Qualifier.isRegionText l.region.regionText = true

namespace Qualifier

variable {w : LocaleWords}

/-- The words of a bare locale. -/
theorem locale_of_isBare (h : w.IsBare) : w.locale =
    { language := .ofLanguage (Text.asciiBytes w.language)
      region := .ofRegion (Text.asciiBytes w.region) } := by
  obtain ⟨hscript, hvariant, hnumbering⟩ := h
  rw [LocaleWords.locale, hscript, hvariant, hnumbering]
  rfl

theorem lowered_bare (h : w.IsBare) : lowered w.locale.qualifiers =
    w.language :: (LocaleWords.optional w.region).map ('r' :: ·) := by
  have hlanguage := map_toLower_of_isSmall (isSmall_of_isLanguage w.language_shape)
  rw [qualifiers_of_bare w.language_isSet (w.isBare_iff.mpr h), w.region_isSet, w.languageText]
  by_cases hregion : w.region = []
  · simp [LocaleWords.optional, lowered, hregion, hlanguage]
  · simp [LocaleWords.optional, lowered, hregion, hlanguage, w.regionText]

theorem dashless_bare (h : w.IsBare) : ∀ t ∈ lowered w.locale.qualifiers, '-' ∉ t := by
  have hregion : ∀ t ∈ LocaleWords.optional w.region, '-' ∉ 'r' :: t := by
    intro t ht hdash
    have hseparable := separable_optional (fun h => (w.region_shape h).separable) t ht
    rcases List.mem_cons.mp hdash with hdash | hdash
    · exact absurd hdash (by decide)
    · exact hseparable.dashless hdash
  rw [lowered_bare h, List.forall_mem_cons, List.forall_mem_map]
  exact ⟨dashless_of_isSmall (isSmall_of_isLanguage w.language_shape), hregion⟩

theorem untagged_bare (h : w.IsBare) :
    ∀ t ∈ lowered w.locale.qualifiers, ¬ ['b', '+'] <+: t := by
  have hregion : ∀ t ∈ LocaleWords.optional w.region, ¬ ['b', '+'] <+: 'r' :: t := by
    intro t _
    simp
  rw [lowered_bare h, List.forall_mem_cons, List.forall_mem_map]
  exact ⟨untagged_of_isSmall (isSmall_of_isLanguage w.language_shape), hregion⟩

/-- A bare locale is spoken if language and region have qualifiers of their own. -/
theorem spoken_of_hasQualifiers (hbare : w.IsBare) (h : w.locale.HasQualifiers) :
    w.locale.Spoken := by
  have hlanguage := h.language
  rw [w.languageText] at hlanguage
  have hspeaks := speaks_of_isLanguage w.language_shape hlanguage
  rw [locale_of_isBare hbare]
  by_cases hregion : w.region = []
  · rw [hregion]
    exact .language hspeaks
  · refine .region hspeaks ?_
    have hset : w.locale.region.isSet = true := by
      rw [w.region_isSet]
      simpa using hregion
    have hcode := regionCode?_toLower w.locale.region.regionText
    rwa [w.regionText, if_pos (h.region hset)] at hcode

/-- A spoken locale has qualifiers for its language and its region. -/
theorem hasQualifiers_of_spoken {l : Locale} (h : l.Spoken) (hset : l.language.isSet = true) :
    l.HasQualifiers := by
  cases h with
  | unset => cases hset
  | @language token speaks =>
      refine ⟨?_, fun hregion => ?_⟩
      · rw [(languageText_ofLanguage speaks.shape).2]
        rintro rfl
        exact not_speaks_car speaks
      · cases hregion
  | @region token code speaks hcode =>
      refine ⟨?_, fun _ => ?_⟩
      · rw [(languageText_ofLanguage speaks.shape).2]
        rintro rfl
        exact not_speaks_car speaks
      · have hlower := regionCode?_toLower (Subtag.ofRegion (Text.asciiBytes code)).regionText
        rw [(regionText_ofRegion hcode).2, hcode] at hlower
        split at hlower
        · assumption
        · cases hlower

/-! ## The last tag -/

/-- A language of two or three letters with subtags of letters and digits behind it, all of
them in small letters and separated by plus signs. -/
def WellFormedTag (tag : List Char) : Prop :=
  ∃ language rest, tag.splitOn '+' = language :: rest ∧ isLanguage language = true ∧
    ∀ part ∈ rest, part ≠ [] ∧ isSmall part = true

/-- A well-formed tag names a locale with words. -/
theorem exists_taggedLocale (h : WellFormedTag tag) :
    ∃ w : LocaleWords, taggedLocale tag = w.locale := by
  obtain ⟨language, rest, hsplit, hlanguage, hrest⟩ := h
  obtain ⟨s, w, hread⟩ := exists_words hlanguage fun part hpart => (hrest part hpart).2
  refine ⟨w, ?_⟩
  have htag : tag = ['+'].intercalate (language :: rest) := by
    rw [← hsplit]
    exact (List.intercalate_splitOn '+').symm
  rw [htag]
  refine taggedLocale_of_words ?_ (List.cons_ne_nil _ _) hread
  rw [List.forall_mem_cons]
  exact ⟨separable_of_isSmall (isSmall_of_isLanguage hlanguage),
    fun part hpart => separable_of_isSmall (hrest part hpart).2⟩

/-- What follows the tokens in front is read by itself if it starts with a tag. -/
theorem exists_parseTokens_tag (before : List (List Char)) (d : Config)
    (h : parseTokens d (before ++ ('b' :: '+' :: tag) :: after) = .ok c) :
    ∃ d', parseTokens d' (('b' :: '+' :: tag) :: after) = .ok c := by
  match before with
  | [] => exact ⟨d, h⟩
  | [token] =>
      -- the tag is no region, and so a language in front of it takes nothing away
      change parseTokens d (token :: ('b' :: '+' :: tag) :: after) = .ok c at h
      rw [parseTokens] at h
      split at h
      · cases h
      · next d' _ => exact ⟨d', h⟩
      · next d' _ =>
          rw [regionCode?_cons (by decide)] at h
          exact ⟨d', h⟩
  | token :: next :: before =>
      change parseTokens d (token :: next :: (before ++ ('b' :: '+' :: tag) :: after)) = .ok c at h
      rw [parseTokens] at h
      split at h
      · cases h
      · exact exists_parseTokens_tag (next :: before) _ h
      · split at h
        · exact exists_parseTokens_tag before _ h
        · exact exists_parseTokens_tag (next :: before) _ h

/-- Where a language is set and no tag follows the locale stays. -/
theorem locale_parseTokens (htags : ∀ token ∈ tokens, ¬ ['b', '+'] <+: token)
    (hset : c.locale.language.isSet = true) (h : parseTokens c tokens = .ok c') :
    c'.locale = c.locale := by
  have hspoken : ∀ {d d' : Config} {token : List Char}, d.locale.language.isSet = true →
      meaning d token ≠ .language d' := by
    intro d d' token hd hmeaning
    rw [(speaks_of_meaning hmeaning).1] at hd
    cases hd
  fun_induction parseTokens c tokens with
  | case1 c => rw [Except.ok.inj h]
  | case2 c token last hmeaning =>
      rw [← Except.ok.inj h]
      exact (change_of_meaning (htags token List.mem_cons_self) hmeaning).locale_eq
  | case3 c token last hmeaning => exact absurd hmeaning (hspoken hset)
  | case4 | case5 => cases h
  | case6 c token next rest changed hmeaning ih =>
      obtain ⟨htag, htags⟩ := List.forall_mem_cons.mp htags
      have hsame := (change_of_meaning htag hmeaning).locale_eq
      rw [← hsame] at hset
      exact (ih htags hset h).trans hsame
  | case7 c token next rest changed hmeaning => exact absurd hmeaning (hspoken hset)
  | case8 c token next rest changed hmeaning => exact absurd hmeaning (hspoken hset)

end Qualifier

namespace Config

open Qualifier

variable {c : Config} {s : String} {tag : List Char}

/-- The last tag of a text, in small letters: it stands behind the last `b+` that starts a
qualifier. -/
def LastTag (s : String) (tag : List Char) : Prop :=
  ∃ before after, (s.toList.map Char.toLower).splitOn '-' =
    before ++ ('b' :: '+' :: tag) :: after ∧ ∀ token ∈ after, ¬ ['b', '+'] <+: token

/-- A well-formed last tag decides the locale. -/
theorem exists_words_of_lastTag (htag : LastTag s tag) (hformed : WellFormedTag tag)
    (h : ofQualifiers s = .ok c) : ∃ w : LocaleWords, c.locale = w.locale := by
  obtain ⟨w, hw⟩ := exists_taggedLocale hformed
  obtain ⟨before, after, htokens, hafter⟩ := htag
  refine ⟨w, ?_⟩
  unfold ofQualifiers at h
  split at h
  · next hword =>
      have hnone : ∀ token ∈ (s.toList.map Char.toLower).splitOn '-', ¬ ['b', '+'] <+: token := by
        rcases hword with rfl | rfl <;> decide +kernel
      refine absurd ⟨tag, rfl⟩ (hnone ('b' :: '+' :: tag) ?_)
      rw [htokens]
      simp
  · rw [htokens] at h
    obtain ⟨d, hd⟩ := exists_parseTokens_tag before _ h
    rw [parseTokens_set (meaning_tag d tag), hw] at hd
    exact locale_parseTokens hafter w.language_isSet hd

/-- A language and a region are printed as plain qualifiers. -/
theorem withoutTag_text {w : LocaleWords} (h : c.Composed) (hw : c.locale = w.locale)
    (hbare : w.IsBare) : WithoutTag c.text := by
  have hlowered := lowered_bare hbare
  rw [← hw] at hlowered
  have hdashless := dashless_bare hbare
  have hne : c.qualifiers ≠ [] := by
    intro hnone
    have hqualifiers := lowered_qualifiers h.minor
    rw [hnone, hlowered] at hqualifiers
    simp [lowered] at hqualifiers
  unfold WithoutTag
  rw [splitOn_text h.minor (hw ▸ hdashless) hne]
  exact forall_lowered_qualifiers h.minor (fun t ht => ht.untagged) (hw ▸ untagged_bare hbare)

/-- A configuration with a well-formed last tag is read back from its text if it has a script,
a variant or a numbering system, or if its language and region have qualifiers of their own,
and only then. -/
theorem ofQualifiers_text_iff (htag : LastTag s tag) (hformed : WellFormedTag tag)
    (h : ofQualifiers s = .ok c) :
    ofQualifiers c.text = .ok c ↔
      (c.locale.hasOwnScript || c.locale.hasVariant || c.locale.hasNumbering) = true ∨
        c.locale.HasQualifiers := by
  have hcomposed := composed_ofQualifiers h
  obtain ⟨w, hw⟩ := exists_words_of_lastTag htag hformed h
  by_cases hbare : w.IsBare
  · have hnone := w.isBare_iff.mpr hbare
    constructor
    · intro hread
      have hspoken := (expressible_ofQualifiers (withoutTag_text hcomposed hw hbare) hread).spoken
      rw [hw] at hspoken ⊢
      exact Or.inr (hasQualifiers_of_spoken hspoken w.language_isSet)
    · intro hcases
      rw [hw, hnone] at hcases
      have hspoken := spoken_of_hasQualifiers hbare (hcases.resolve_left Bool.false_ne_true)
      rw [← hw] at hspoken
      exact ofQualifiers_text_of_composed hcomposed (readBack_of_spoken hspoken)
  · have hread : ofQualifiers c.text = .ok c := by
      refine ofQualifiers_text_of_composed hcomposed ?_
      rw [hw]
      exact readBack_of_tag hbare
    have hmore : (c.locale.hasOwnScript || c.locale.hasVariant || c.locale.hasNumbering) = true := by
      rw [hw]
      exact eq_true_of_ne_false fun hnone => hbare (w.isBare_iff.mp hnone)
    exact ⟨fun _ => Or.inl hmore, fun _ => hread⟩

/-- A tag with a word in every field, in mixed case, between other qualifiers. -/
theorem ofQualifiers_text_serbian :
    LastTag "v21-b+SR+Latn+RS+posix+u+nu+arab-land" "sr+latn+rs+posix+u+nu+arab".toList ∧
      WellFormedTag "sr+latn+rs+posix+u+nu+arab".toList ∧
        ∃ c, ofQualifiers "v21-b+SR+Latn+RS+posix+u+nu+arab-land" = .ok c ∧
          ofQualifiers c.text = .ok c := by
  have htag : LastTag "v21-b+SR+Latn+RS+posix+u+nu+arab-land"
      "sr+latn+rs+posix+u+nu+arab".toList := by
    refine ⟨["v21".toList], ["land".toList], ?_, ?_⟩ <;> decide +kernel
  have hformed : WellFormedTag "sr+latn+rs+posix+u+nu+arab".toList := by
    refine ⟨"sr".toList, ["latn".toList, "rs".toList, "posix".toList, "u".toList, "nu".toList,
      "arab".toList], ?_, ?_, ?_⟩ <;> decide +kernel
  have hvariant : (ofQualifiers "v21-b+SR+Latn+RS+posix+u+nu+arab-land").map
      (fun c => c.locale.hasOwnScript || c.locale.hasVariant || c.locale.hasNumbering) =
        .ok true := by
    decide +kernel
  cases hread : ofQualifiers "v21-b+SR+Latn+RS+posix+u+nu+arab-land" with
  | error e =>
      rw [hread] at hvariant
      cases hvariant
  | ok c =>
      rw [hread] at hvariant
      exact ⟨htag, hformed, c, rfl,
        (ofQualifiers_text_iff htag hformed hread).mpr (Or.inl (Except.ok.inj hvariant))⟩

/-- Not every configuration with a well-formed tag is read back: the language `car` is printed
as the word for a device in a car. -/
theorem not_forall_ofQualifiers_text :
    ¬ ∀ (s : String) (tag : List Char) (c : Config),
      'b' :: '+' :: tag ∈ (s.toList.map Char.toLower).splitOn '-' → WellFormedTag tag →
        ofQualifiers s = .ok c → ofQualifiers c.text = .ok c := by
  intro hall
  have hread : ofQualifiers "b+car" =
      .ok { default with locale.language := .ofLanguage (Text.asciiBytes "car".toList) } := by
    decide +kernel
  have hformed : WellFormedTag "car".toList := by
    refine ⟨"car".toList, [], ?_, ?_, ?_⟩ <;> decide +kernel
  have hback := hall "b+car" "car".toList _ (by decide +kernel) hformed hread
  exact absurd hback (by decide +kernel)

end Config

end AppResources
