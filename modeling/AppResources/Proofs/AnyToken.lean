import AppResources.Proofs.TagRoundTrip

/-!
# The token `any`

No rule for qualifiers knows `any` as a word of its own: three small letters are a language,
and one language is all there can be. So `any` among other tokens is refused where a language
is set, and otherwise it sets one, which a region may follow. The configuration is the one
without `any` only if a tag comes later and replaces the locale, and if nothing before the tag
asks whether a language is set.

## Main definitions

* `Qualifier.Separates`: a position between a language and its region.
* `Qualifier.Overwritten`: a tag follows, and nothing in front of it depends on the locale.

## Main results

* `parseTokens_append`: tokens are read one part after the other, unless a language is separated
  from its region.
* `parseTokens_withLocale_iff`: when two locales lead to one configuration.
* `ofQualifiers_insert_any_iff`: where `any` can be inserted without an effect.
-/

namespace AppResources

namespace Qualifier

variable {c c' d : Config} {token : List Char} {tokens before after rest : List (List Char)}

/-! ## Tokens one part after the other -/

/-- In front of the position a language is read, and its region stands behind it. -/
def Separates (c : Config) (before after : List (List Char)) : Prop :=
  ∃ front language region rest d d', before = front ++ [language] ∧ after = region :: rest ∧
    parseTokens c front = .ok d ∧ meaning d language = .language d' ∧
      (regionCode? region).isSome = true

/-- Tokens that are read first can be left out. -/
theorem Separates.of_front (front : List (List Char)) (h : Separates d before after)
    (hfront : ∀ more, (∃ language, before = more ++ [language]) →
      parseTokens c (front ++ more) = parseTokens d more) :
    Separates c (front ++ before) after := by
  obtain ⟨more, language, region, rest, e, e', rfl, rfl, hmore, hlanguage, hregion⟩ := h
  exact ⟨front ++ more, language, region, rest, e, e', (List.append_assoc ..).symm, rfl,
    (hfront more ⟨language, rfl⟩).trans hmore, hlanguage, hregion⟩

/-- Tokens are read one part after the other, unless a language is separated from its region. -/
theorem parseTokens_append (h : ¬ Separates c before after) :
    parseTokens c (before ++ after) =
      (parseTokens c before).bind fun d => parseTokens d after := by
  fun_induction parseTokens c before with
  | case1 c => rfl
  | case2 c token set hmeaning => exact parseTokens_set hmeaning
  | case3 c token set hmeaning =>
      refine parseTokens_language_of_head? hmeaning fun t ht => ?_
      by_contra hregion
      obtain ⟨rest, rfl⟩ : ∃ rest, after = t :: rest := ⟨_, List.eq_cons_of_mem_head? ht⟩
      exact h ⟨[], token, t, rest, c, set, rfl, rfl, rfl, hmeaning,
        Option.isSome_iff_ne_none.mpr hregion⟩
  | case4 c token e hmeaning => exact parseTokens_refused hmeaning
  | case5 c token next rest e hmeaning => exact parseTokens_refused hmeaning
  | case6 c token next rest set hmeaning ih =>
      refine (parseTokens_set hmeaning).trans (ih fun hsep => h ?_)
      exact hsep.of_front [token] fun more _ => parseTokens_set hmeaning
  | case7 c token next rest set hmeaning code hregion ih =>
      refine (parseTokens_region hmeaning hregion).trans (ih fun hsep => h ?_)
      exact hsep.of_front [token, next] fun more _ => parseTokens_region hmeaning hregion
  | case8 c token next rest set hmeaning hregion ih =>
      have hskip : ∀ more, (∀ t ∈ more.head?, t = next) →
          parseTokens c (token :: more) = parseTokens set more := fun more hmore =>
        parseTokens_language_of_head? hmeaning fun t ht => hmore t ht ▸ hregion
      refine (hskip (next :: rest ++ after) (by simp)).trans (ih fun hsep => h ?_)
      refine hsep.of_front [token] fun more hbefore => hskip more ?_
      obtain ⟨language, hmore⟩ := hbefore
      cases more with
      | nil => simp
      | cons first more => simpa using (List.cons.inj hmore).1.symm

/-! ## Tokens that do not depend on the locale -/

/-- A token that neither changes the locale nor asks for it: no language, no region, no tag. -/
structure Neutral (token : List Char) : Prop where
  silent : ¬ Speaks token
  noRegion : regionCode? token = none
  untagged : ¬ ['b', '+'] <+: token

/-- A tag follows, and nothing in front of it depends on the locale. -/
def Overwritten (tokens : List (List Char)) : Prop :=
  ∃ front tag rest, tokens = front ++ tag :: rest ∧ (∀ t ∈ front, Neutral t) ∧ ['b', '+'] <+: tag

theorem not_overwritten_nil : ¬ Overwritten [] := by
  rintro ⟨front, tag, rest, heq, -, -⟩
  simp at heq

theorem Overwritten.exists_tag (h : Overwritten tokens) : ∃ t ∈ tokens, ['b', '+'] <+: t := by
  obtain ⟨front, tag, rest, rfl, -, htag⟩ := h
  exact ⟨tag, by simp, htag⟩

theorem overwritten_of_tag (h : ['b', '+'] <+: token) : Overwritten (token :: tokens) :=
  ⟨[], token, tokens, rfl, by simp, h⟩

theorem Neutral.overwritten_cons_iff (h : Neutral token) :
    Overwritten (token :: tokens) ↔ Overwritten tokens := by
  constructor
  · rintro ⟨front, tag, rest, heq, hfront, htag⟩
    cases front with
    | nil =>
        obtain ⟨rfl, rfl⟩ := List.cons.inj heq
        exact absurd htag h.untagged
    | cons first front =>
        obtain ⟨rfl, rfl⟩ := List.cons.inj heq
        exact ⟨front, tag, rest, rfl, (List.forall_mem_cons.mp hfront).2, htag⟩
  · rintro ⟨front, tag, rest, rfl, hfront, htag⟩
    exact ⟨token :: front, tag, rest, rfl, List.forall_mem_cons.mpr ⟨h, hfront⟩, htag⟩

theorem not_overwritten_cons (htag : ¬ ['b', '+'] <+: token) (h : ¬ Neutral token) :
    ¬ Overwritten (token :: tokens) := by
  rintro ⟨front, tag, rest, heq, hfront, hfollows⟩
  cases front with
  | nil =>
      obtain ⟨rfl, rfl⟩ := List.cons.inj heq
      exact htag hfollows
  | cons first front =>
      obtain ⟨rfl, rfl⟩ := List.cons.inj heq
      exact h (List.forall_mem_cons.mp hfront).1

/-- Neither is a word or a number. -/
theorem unmatched_region (h : (regionCode? token).isSome = true) : Unmatched token := by
  obtain ⟨code, hcode⟩ := Option.isSome_iff_exists.mp h
  obtain rfl := eq_of_regionCode? hcode
  refine ⟨?_, ?_, leadingDigits?_cons (by decide), ?_⟩
  · refine List.find?_eq_none.mpr fun w hw heq => ?_
    rw [← beq_iff_eq.mp heq, (plain_word hw).noRegion] at hcode
    cases hcode
  · refine List.find?_eq_none.mpr fun d hd heq => ?_
    rw [← beq_iff_eq.mp heq, (plain_densityName hd).noRegion] at hcode
    cases hcode
  · refine List.findSome?_eq_none_iff.mpr fun q _ => ?_
    have hmark : q.mark.toList.isPrefixOf? ('r' :: code) = none := by cases q <;> rfl
    rw [hmark]

theorem Speaks.unmatched (h : Speaks token) : Unmatched token := by
  refine unmatched_language h.shape ?_
  rintro rfl
  exact not_speaks_car h

/-- Where a language is set, languages and regions are refused. -/
theorem meaning_of_not_neutral (hset : c.locale.language.isSet = true)
    (htag : ¬ ['b', '+'] <+: token) (h : ¬ Neutral token) :
    meaning c token = .refused (.unknown (String.ofList token)) := by
  have hunmatched : Unmatched token := by
    by_cases hspeaks : Speaks token
    · exact hspeaks.unmatched
    · by_cases hregion : regionCode? token = none
      · exact absurd ⟨hspeaks, hregion, htag⟩ h
      · exact unmatched_region (Option.isSome_iff_ne_none.mpr hregion)
  rw [meaning_of_unmatched c hunmatched]
  split
  · exact absurd ⟨_, rfl⟩ htag
  · rw [hset]
    rfl

/-- A number with its mark sets its field beside any locale. -/
theorem applyNumbered_withLocale {n : Numbered} (l : Locale)
    (h : applyNumbered c token n = .ok c') :
    applyNumbered { c with locale := l } token n = .ok { c' with locale := l } := by
  have hset : ∀ (q : NumberQualifier) (v : UInt16),
      q.set v { c with locale := l } = { q.set v c with locale := l } := by
    intro q v
    cases q <;> rfl
  unfold applyNumbered at h ⊢
  split at h
  · cases h
  · next hdp =>
    rw [if_neg hdp]
    split at h
    · next hzeros =>
        cases h
        rw [if_pos hzeros, hset]
    · next hzeros =>
        rw [if_neg hzeros]
        split at h
        · cases h
          rw [hset]
        · cases h

theorem applySize_withLocale {digits : List Char × List Char} (l : Locale)
    (h : applySize c token digits = .ok c') :
    applySize { c with locale := l } token digits = .ok { c' with locale := l } := by
  unfold applySize at h ⊢
  cases hfirst : readNumber token digits.1 with
  | error e =>
      rw [hfirst] at h
      cases h
  | ok a =>
      cases hsecond : readNumber token digits.2 with
      | error e =>
          rw [hfirst, hsecond] at h
          cases h
      | ok b =>
          rw [hfirst, hsecond] at h
          cases h
          rfl

/-- A token that is no tag and no language does the same beside any locale. -/
theorem meaning_withLocale (htag : ¬ ['b', '+'] <+: token) (l : Locale)
    (h : meaning c token = .set c') :
    meaning { c with locale := l } token = .set { c' with locale := l } := by
  unfold meaning at h ⊢
  split at h
  · next w _ =>
      cases h
      cases w.field <;> rfl
  · split at h
    · cases h
      rfl
    · split at h
      · next digits _ =>
          cases hread : readNumber token digits with
          | error e =>
              rw [hread] at h
              cases h
          | ok d =>
              rw [hread] at h
              cases h
              rfl
      · split at h
        · rw [applySize_withLocale l (eq_ok_of_ofResult h)]
          rfl
        · split at h
          · rw [applyNumbered_withLocale l (eq_ok_of_ofResult h)]
            rfl
          · split at h
            · exact absurd ⟨_, rfl⟩ htag
            · split at h <;> cases h

/-- With another locale in which a language is set, tokens lead to the same configuration exactly
if the locale is overwritten before it counts. -/
theorem parseTokens_withLocale_iff {l : Locale} (hset : l.language.isSet = true)
    (hne : l ≠ c.locale) (h : parseTokens c tokens = .ok c') :
    parseTokens { c with locale := l } tokens = .ok c' ↔ Overwritten tokens := by
  induction tokens generalizing c with
  | nil =>
      cases h
      refine iff_of_false (fun heq => hne ?_) not_overwritten_nil
      exact congrArg Config.locale (Except.ok.inj heq)
  | cons token tokens ih =>
      by_cases htag : ['b', '+'] <+: token
      · obtain ⟨tag, rfl⟩ := htag
        rw [← h]
        refine iff_of_true ?_ (overwritten_of_tag ⟨tag, rfl⟩)
        exact (parseTokens_set (meaning_tag _ tag)).trans (parseTokens_set (meaning_tag c tag)).symm
      · by_cases hneutral : Neutral token
        · rw [hneutral.overwritten_cons_iff]
          cases hmeaning : meaning c token with
          | set d =>
              rw [parseTokens_set hmeaning] at h
              rw [parseTokens_set (meaning_withLocale htag l hmeaning)]
              refine ih ?_ h
              rwa [(change_of_meaning htag hmeaning).locale_eq]
          | language d => exact absurd (speaks_of_meaning hmeaning).2.1 hneutral.silent
          | refused e =>
              rw [parseTokens_refused hmeaning] at h
              cases h
        · refine iff_of_false ?_ (not_overwritten_cons htag hneutral)
          have hrefused : meaning { c with locale := l } token = _ :=
            meaning_of_not_neutral hset htag hneutral
          rw [parseTokens_refused hrefused]
          exact nofun

/-! ## The token -/

/-- The token `any`. -/
def anyToken : List Char := "any".toList

/-- What is left of tokens when a region in front is taken away. -/
def behindRegion : List (List Char) → List (List Char)
  | [] => []
  | token :: tokens => if (regionCode? token).isSome then tokens else token :: tokens

/-- A language takes the region that follows it. -/
theorem parseTokens_speaking (h : meaning c token = .language d) (tokens : List (List Char)) :
    ∃ l : Locale, l.language = d.locale.language ∧
      parseTokens c (token :: tokens) =
        parseTokens { d with locale := l } (behindRegion tokens) := by
  have halone : ∀ tokens, (∀ t ∈ tokens.head?, regionCode? t = none) →
      behindRegion tokens = tokens ∧ parseTokens c (token :: tokens) = parseTokens d tokens := by
    intro tokens hhead
    refine ⟨?_, parseTokens_language_of_head? h hhead⟩
    cases tokens with
    | nil => rfl
    | cons first tokens => simp [behindRegion, hhead first rfl]
  cases tokens with
  | nil => exact ⟨d.locale, rfl, (halone [] (by simp)).2⟩
  | cons first tokens =>
      cases hcode : regionCode? first with
      | none =>
          obtain ⟨hbehind, hparse⟩ := halone (first :: tokens) (by simp [hcode])
          rw [hbehind]
          exact ⟨d.locale, rfl, hparse⟩
      | some code =>
          refine ⟨{ d.locale with region := .ofRegion (Text.asciiBytes code) }, rfl, ?_⟩
          rw [parseTokens_region h hcode]
          simp [behindRegion, hcode]

theorem speaks_any : Speaks anyToken :=
  speaks_of_isLanguage (by decide) (by decide)

theorem regionCode?_any : regionCode? anyToken = none := by
  decide

/-- Where a language is set `any` is refused. -/
theorem parseTokens_any_of_set (hset : c.locale.language.isSet = true)
    (tokens : List (List Char)) :
    parseTokens c (anyToken :: tokens) = .error (.unknown "any") :=
  parseTokens_refused (meaning_of_not_neutral hset (by decide) fun h => h.silent speaks_any)

theorem untagged_of_region (h : (regionCode? token).isSome = true) : ¬ ['b', '+'] <+: token := by
  obtain ⟨code, hcode⟩ := Option.isSome_iff_exists.mp h
  obtain rfl := eq_of_regionCode? hcode
  exact untagged_of_isSmall (isSmall_of_regionCode? hcode)

theorem not_neutral_of_region (h : (regionCode? token).isSome = true) : ¬ Neutral token := by
  intro hneutral
  rw [hneutral.noRegion] at h
  cases h

theorem behindRegion_cases (tokens : List (List Char)) :
    behindRegion tokens = tokens ∨ ∃ region rest, tokens = region :: rest ∧
      (regionCode? region).isSome = true ∧ behindRegion tokens = rest := by
  cases tokens with
  | nil => exact .inl rfl
  | cons token tokens =>
      by_cases h : (regionCode? token).isSome = true
      · exact .inr ⟨token, tokens, rfl, h, if_pos h⟩
      · exact .inl (if_neg h)

/-- Without a language in front of it, a region is a language itself or it is refused. -/
theorem meaning_of_region (h : (regionCode? token).isSome = true) : meaning c token ≠ .set d := by
  rw [meaning_of_unmatched c (unmatched_region h)]
  split
  · exact absurd ⟨_, rfl⟩ (untagged_of_region h)
  · split <;> exact nofun

/-- No region has the text `any`. -/
theorem ofLanguage_any_ne (hspeaks : Speaks token) (h : (regionCode? token).isSome = true) :
    Subtag.ofLanguage (Text.asciiBytes anyToken) ≠ Subtag.ofLanguage (Text.asciiBytes token) := by
  intro heq
  have htext := congrArg Subtag.languageText heq
  rw [(languageText_ofLanguage speaks_any.shape).2,
    (languageText_ofLanguage hspeaks.shape).2] at htext
  rw [← htext, regionCode?_any] at h
  cases h

/-- Where no language is set `any` has no effect exactly if the locale is overwritten behind it
and behind the region that it may take. -/
theorem parseTokens_any_iff (hunset : c.locale.language.isSet = false)
    (h : parseTokens c tokens = .ok c') :
    parseTokens c (anyToken :: tokens) = .ok c' ↔ Overwritten (behindRegion tokens) := by
  obtain ⟨l, hl, hany⟩ := parseTokens_speaking (speaks_any.meaning_eq c hunset) tokens
  have hset : l.language.isSet = true := by
    rw [hl]
    exact (languageText_ofLanguage speaks_any.shape).1
  have hread : parseTokens c (anyToken :: tokens) =
      parseTokens { c with locale := l } (behindRegion tokens) := hany
  rw [hread]
  rcases behindRegion_cases tokens with hnone | ⟨region, rest, rfl, hregion, hbehind⟩
  · rw [hnone]
    refine parseTokens_withLocale_iff hset (fun heq => ?_) h
    rw [heq, hunset] at hset
    cases hset
  · rw [hbehind]
    -- without `any` the region is a language, which takes a region of its own
    cases hmeaning : meaning c region with
    | set d => exact absurd hmeaning (meaning_of_region hregion)
    | refused e =>
        rw [parseTokens_refused hmeaning] at h
        cases h
    | language d =>
        obtain ⟨-, hspeaks, rfl⟩ := speaks_of_meaning hmeaning
        obtain ⟨l', hl', hlanguage⟩ := parseTokens_speaking hmeaning rest
        rw [hlanguage] at h
        rcases behindRegion_cases rest with hnone | ⟨second, more, rfl, hsecond, -⟩
        · rw [hnone] at h
          refine parseTokens_withLocale_iff (c := { c with locale := l' }) hset (fun heq => ?_) h
          refine ofLanguage_any_ne hspeaks hregion ?_
          have hsame := congrArg Locale.language heq
          rwa [hl, hl'] at hsame
        · have htag := untagged_of_region hsecond
          have hnot := not_neutral_of_region hsecond
          refine iff_of_false ?_ (not_overwritten_cons htag hnot)
          have hrefused : meaning { c with locale := l } second = _ :=
            meaning_of_not_neutral hset htag hnot
          rw [parseTokens_refused hrefused]
          exact nofun

/-- The tokens leave the language unset. -/
def LeavesLanguageUnset (tokens : List (List Char)) : Prop :=
  ∃ c, parseTokens Config.default tokens = .ok c ∧ c.locale.language.isSet = false

/-- Between tokens `any` has no effect exactly if those in front leave the language unset and
those behind overwrite the locale. -/
theorem parseTokens_insert_any_iff (hposition : ¬ Separates Config.default before after)
    (h : parseTokens Config.default (before ++ after) = .ok c) :
    parseTokens Config.default (before ++ anyToken :: after) = .ok c ↔
      LeavesLanguageUnset before ∧ Overwritten (behindRegion after) := by
  have hany : ¬ Separates Config.default before (anyToken :: after) := by
    rintro ⟨front, language, region, rest, d, d', -, heq, -, -, hregion⟩
    rw [← (List.cons.inj heq).1, regionCode?_any] at hregion
    cases hregion
  rw [parseTokens_append hposition] at h
  rw [parseTokens_append hany]
  unfold LeavesLanguageUnset
  cases hbefore : parseTokens Config.default before with
  | error e =>
      rw [hbefore] at h
      cases h
  | ok d =>
      rw [hbefore] at h
      have hafter : parseTokens d after = .ok c := h
      show parseTokens d (anyToken :: after) = .ok c ↔ _
      cases hlanguage : d.locale.language.isSet with
      | true =>
          rw [parseTokens_any_of_set hlanguage]
          refine iff_of_false nofun ?_
          rintro ⟨⟨e, heq, hunset⟩, -⟩
          cases heq
          rw [hlanguage] at hunset
          cases hunset
      | false =>
          rw [parseTokens_any_iff hlanguage hafter]
          exact ⟨fun hlater => ⟨⟨d, rfl, hlanguage⟩, hlater⟩, fun hboth => hboth.2⟩

end Qualifier

namespace Config

open Qualifier

variable {c : Config} {tokens before after : List (List Char)}

/-- Tokens with dashes between them. -/
def joined (tokens : List (List Char)) : String :=
  String.ofList (['-'].intercalate tokens)

theorem eq_dash_of_toLower {a : Char} (h : a.toLower = '-') : a = '-' := by
  rcases upper_or_fixed a with ⟨k, hk, rfl⟩ | ⟨-, hsame⟩
  · exfalso
    revert k
    decide +kernel
  · rwa [hsame] at h

theorem splitOn_joined (hne : tokens ≠ []) (hdash : ∀ t ∈ tokens, '-' ∉ t) :
    (joined tokens).toList.splitOn '-' = tokens := by
  rw [joined, String.toList_ofList]
  exact List.splitOn_intercalate '-' hdash hne

/-- Two words describe the default configuration; all else is read token by token. -/
theorem ofQualifiers_joined (hne : tokens ≠ []) (hdash : ∀ t ∈ tokens, '-' ∉ t) :
    ofQualifiers (joined tokens) =
      if tokens = [[]] ∨ tokens = ["default".toList] then .ok default
      else parseTokens default (lowered tokens) := by
  have hsplit := splitOn_joined hne hdash
  by_cases hword : joined tokens = "" ∨ joined tokens = "default"
  · have htokens : tokens = [[]] ∨ tokens = ["default".toList] := by
      rw [← hsplit]
      rcases hword with hword | hword
      · exact .inl (by rw [hword]; decide)
      · exact .inr (by rw [hword]; decide)
    rw [ofQualifiers, if_pos hword, if_pos htokens]
  · have htokens : ¬ (tokens = [[]] ∨ tokens = ["default".toList]) := by
      rintro (rfl | rfl)
      · exact hword (.inl (by decide))
      · exact hword (.inr (by decide))
    have hlowered : ∀ t ∈ lowered tokens, '-' ∉ t := by
      intro t ht hmem
      obtain ⟨u, hu, rfl⟩ := List.mem_map.mp ht
      obtain ⟨a, ha, heq⟩ := List.mem_map.mp hmem
      exact hdash u hu (eq_dash_of_toLower heq ▸ ha)
    rw [ofQualifiers, if_neg hword, if_neg htokens, joined, String.toList_ofList,
      Text.map_intercalate]
    exact congrArg _ (List.splitOn_intercalate '-' hlowered (by simpa [lowered] using hne))

/-- Beside a word for the default configuration `any` is refused or the word is. -/
theorem insert_any_of_word
    (h : before ++ after = [[]] ∨ before ++ after = ["default".toList]) :
    (ofQualifiers (joined (before ++ anyToken :: after))).isOk = false ∧
      ¬ Overwritten (behindRegion (lowered after)) := by
  rcases h with h | h <;> rcases List.append_eq_singleton_iff.mp h with ⟨rfl, rfl⟩ | ⟨rfl, rfl⟩ <;>
    exact ⟨by decide +kernel, fun hover => absurd hover.exists_tag (by decide)⟩

/-- Where `any` can be inserted between tokens without an effect: if the tokens in front of it
leave the language unset, and those behind it, and behind the region that it may take, overwrite
the locale with a tag. -/
theorem ofQualifiers_insert_any_iff (hne : before ++ after ≠ [])
    (hdash : ∀ t ∈ before ++ after, '-' ∉ t)
    (hposition : ¬ Separates default (lowered before) (lowered after))
    (h : ofQualifiers (joined (before ++ after)) = .ok c) :
    ofQualifiers (joined (before ++ anyToken :: after)) = .ok c ↔
      LeavesLanguageUnset (lowered before) ∧ Overwritten (behindRegion (lowered after)) := by
  by_cases hword : before ++ after = [[]] ∨ before ++ after = ["default".toList]
  · obtain ⟨hrefused, hover⟩ := insert_any_of_word hword
    refine iff_of_false (fun hok => ?_) fun hboth => hover hboth.2
    rw [hok] at hrefused
    cases hrefused
  · have hmem : anyToken ∈ before ++ anyToken :: after := by simp
    have hother : ¬ (before ++ anyToken :: after = [[]] ∨
        before ++ anyToken :: after = ["default".toList]) := by
      rintro (heq | heq) <;> rw [heq] at hmem <;> exact absurd hmem (by decide)
    have hdashes : ∀ t ∈ before ++ anyToken :: after, '-' ∉ t := by
      rw [List.forall_mem_append] at hdash ⊢
      exact ⟨hdash.1, List.forall_mem_cons.mpr ⟨by decide, hdash.2⟩⟩
    rw [ofQualifiers_joined hne hdash, if_neg hword, lowered_append] at h
    rw [ofQualifiers_joined (List.ne_nil_of_mem hmem) hdashes, if_neg hother, lowered_append]
    exact parseTokens_insert_any_iff hposition h

/-- Behind `any` the first token is its region, and the tag at the end replaces both. -/
theorem ofQualifiers_insert_any_rus :
    ∃ c, ([] ++ ["rUS".toList, "night".toList, "b+en".toList] ≠ [] ∧
      (∀ t ∈ [] ++ ["rUS".toList, "night".toList, "b+en".toList], '-' ∉ t) ∧
      ¬ Separates default (lowered []) (lowered ["rUS".toList, "night".toList, "b+en".toList]) ∧
      ofQualifiers (joined ([] ++ ["rUS".toList, "night".toList, "b+en".toList])) = .ok c) ∧
    (ofQualifiers
        (joined ([] ++ anyToken :: ["rUS".toList, "night".toList, "b+en".toList])) = .ok c ↔
      LeavesLanguageUnset (lowered []) ∧
        Overwritten (behindRegion (lowered ["rUS".toList, "night".toList, "b+en".toList]))) := by
  have hposition : ¬ Separates default (lowered [])
      (lowered ["rUS".toList, "night".toList, "b+en".toList]) := by
    rintro ⟨front, language, region, rest, d, d', hfront, -⟩
    simp [lowered] at hfront
  have hok : (ofQualifiers
      (joined ([] ++ ["rUS".toList, "night".toList, "b+en".toList]))).isOk = true := by
    decide +kernel
  cases hread : ofQualifiers (joined ([] ++ ["rUS".toList, "night".toList, "b+en".toList])) with
  | error e =>
      rw [hread] at hok
      cases hok
  | ok c =>
      exact ⟨c, ⟨by decide, by decide, hposition, rfl⟩,
        ofQualifiers_insert_any_iff (by decide) (by decide) hposition hread⟩

/-- Whether `any` never has an effect where it may stand. -/
def AnyIsNeutral : Prop :=
  ∀ before after c, before ++ after ≠ [] → (∀ t ∈ before ++ after, '-' ∉ t) →
    ¬ Separates default (lowered before) (lowered after) →
      ofQualifiers (joined (before ++ after)) = .ok c →
        ofQualifiers (joined (before ++ anyToken :: after)) = .ok c

/-- Behind `land` it is a language. -/
theorem not_anyIsNeutral : ¬ AnyIsNeutral := by
  intro h
  have hposition : ¬ Separates default (lowered ["land".toList]) (lowered []) := by
    rintro ⟨front, language, region, rest, d, d', -, hafter, -⟩
    simp [lowered] at hafter
  have hland : ((ofQualifiers (joined (["land".toList] ++ []))).toOption.map
      (·.locale.language.isSet)) = some false := by decide +kernel
  have hany : ((ofQualifiers (joined (["land".toList] ++ anyToken :: []))).toOption.map
      (·.locale.language.isSet)) = some true := by decide +kernel
  cases hread : ofQualifiers (joined (["land".toList] ++ [])) with
  | error e =>
      rw [hread] at hland
      cases hland
  | ok c =>
      rw [hread] at hland
      rw [h _ _ c (by decide) (by decide) hposition hread, hland] at hany
      cases hany

end Config

end AppResources
