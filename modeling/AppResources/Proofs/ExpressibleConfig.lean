import AppResources.Proofs.QualifierToken

/-!
# Configurations that qualifiers can express

Reading qualifiers does not reach every configuration: a field of a byte gets only values
that have a word, the bits between the fields stay zero, the larger side of the screen comes
first, and there is no minor version. Without a tag behind `b+` a locale is a language with or
without a region. One token keeps this, and so do all tokens.

## Main definitions

* `Config.Composed`: what reading keeps of the fields besides the locale.
* `Config.Expressible`: what it keeps of all fields where there is no tag.
* `Qualifier.Change`: what one token can do.

## Main results

* `composed_ofQualifiers`: qualifiers describe a configuration that is composed of values with
  words.
* `expressible_ofQualifiers`: qualifiers without a tag describe an expressible configuration.
-/

namespace AppResources

/-! ## Parts of a byte -/

namespace ConfigField

/-- Bytes with the same bits are equal. -/
theorem bits_eq_iff {x y : UInt8} :
    x = y ↔ ∀ i < 8, x.toBitVec.getLsbD i = y.toBitVec.getLsbD i := by
  constructor
  · rintro rfl i _
    rfl
  · intro h
    exact UInt8.toBitVec_inj.mp (BitVec.eq_of_getLsbD_eq h)

section Bits

variable {b v m n : UInt8}

theorem replace_and_self (hv : v &&& m = v) : ((b &&& ~~~m) ||| v) &&& m = v := by
  rw [bits_eq_iff] at hv ⊢
  intro i hi
  have hbit := hv i hi
  simp at hbit ⊢
  grind

theorem replace_and_of_disjoint (hv : v &&& m = v) (hm : n &&& m = 0) :
    ((b &&& ~~~m) ||| v) &&& n = b &&& n := by
  rw [bits_eq_iff] at hv hm ⊢
  intro i hi
  have hbit := hv i hi
  have hapart := hm i hi
  simp at hbit hapart ⊢
  grind

theorem replace_and_of_subset (hb : b &&& n = b) (hv : v &&& m = v) (hm : m &&& n = m) :
    ((b &&& ~~~m) ||| v) &&& n = (b &&& ~~~m) ||| v := by
  rw [bits_eq_iff] at hb hv hm ⊢
  intro i hi
  have hold := hb i hi
  have hbit := hv i hi
  have hmask := hm i hi
  simp at hold hbit hmask ⊢
  grind

end Bits

/-- The bits that the fields of a byte take together. -/
def used : ConfigField → UInt8
  | .layoutDirection | .sizeClass | .aspect => 0xff
  | .roundness => 0x03
  | .gamut | .dynamicRange => 0x0f
  | .deviceKind | .night => 0x3f
  | .keysHidden | .navigationHidden => 0x0f
  | .orientation | .touchscreen | .keyboard | .navigation => 0xff

theorem mask_and_used (f : ConfigField) : f.mask &&& f.used = f.mask := by
  cases f <;> rfl

variable {f g : ConfigField} {c : Config} {v : UInt8}

/-- Another byte stays as it is; the same byte is that of the same field or of one with other
bits. -/
theorem byte_setByte (f g : ConfigField) (b : UInt8) (c : Config) :
    (f ≠ g ∧ f.byte (g.setByte b c) = f.byte c) ∨
      ((f = g ∨ f.mask &&& g.mask = 0) ∧ f.byte (g.setByte b c) = b ∧
        f.byte c = g.byte c ∧ f.used = g.used) := by
  cases f <;> cases g <;>
    first
    | exact Or.inl ⟨by decide, rfl⟩
    | exact Or.inr ⟨by decide, rfl, rfl, rfl⟩

theorem get_set_self (hv : v &&& f.mask = v) : f.get (f.set v c) = v := by
  rcases byte_setByte f f ((f.byte c &&& ~~~f.mask) ||| v) c with ⟨hne, -⟩ | ⟨-, hbyte, -⟩
  · exact absurd rfl hne
  · rw [get, set, hbyte]
    exact replace_and_self hv

theorem get_set_of_ne (hne : f ≠ g) (hv : v &&& g.mask = v) : f.get (g.set v c) = f.get c := by
  rcases byte_setByte f g ((g.byte c &&& ~~~g.mask) ||| v) c with
    ⟨-, hbyte⟩ | ⟨hmask, hbyte, hsame, -⟩
  · rw [get, set, hbyte, get]
  · rw [get, set, hbyte, get, hsame]
    exact replace_and_of_disjoint hv (hmask.resolve_left hne)

end ConfigField

/-! ## Locales of tokens -/

namespace Qualifier

/-- A token that is read as a language wherever no language is set. -/
structure Speaks (token : List Char) : Prop where
  shape : isLanguage token = true
  meaning_eq : ∀ c : Config, c.locale.language.isSet = false →
    meaning c token = .language { c with locale.language := .ofLanguage (Text.asciiBytes token) }

end Qualifier

/-- No locale, or one that a language token and perhaps a region token name. -/
inductive Locale.Spoken : Locale → Prop where
  | unset : Spoken {}
  | language {token : List Char} (speaks : Qualifier.Speaks token) :
      Spoken { language := .ofLanguage (Text.asciiBytes token) }
  | region {token code : List Char} (speaks : Qualifier.Speaks token)
      (hcode : Qualifier.regionCode? ('r' :: code) = some code) :
      Spoken {
        language := .ofLanguage (Text.asciiBytes token)
        region := .ofRegion (Text.asciiBytes code) }

namespace Config

/-- Whether a value of a field is zero or has a word. -/
def HasWord (f : ConfigField) (value : UInt8) : Prop :=
  value = 0 ∨ ∃ w ∈ QualifierWord.all, w.field = f ∧ w.value = value

/-- A configuration whose fields besides the locale qualifiers can express. -/
structure Composed (c : Config) : Prop where
  worded : ∀ f : ConfigField, HasWord f (f.get c)
  tight : ∀ f : ConfigField, f.byte c &&& f.used = f.byte c
  sides : c.screenHeight ≤ c.screenWidth
  minor : c.minorVersion = 0

/-- A configuration that qualifiers without a tag can express. -/
structure Expressible (c : Config) : Prop extends Composed c where
  spoken : c.locale.Spoken

theorem composed_default : default.Composed where
  worded f := Or.inl (by cases f <;> rfl)
  tight f := by cases f <;> rfl
  sides := UInt16.le_refl 0
  minor := rfl

variable {c c' : Config}

/-- Only the bytes of fields, the sides of the screen and the minor version count. -/
theorem Composed.congr (h : c.Composed) (hbyte : ∀ f : ConfigField, f.byte c' = f.byte c)
    (hsides : c'.screenHeight ≤ c'.screenWidth) (hminor : c'.minorVersion = c.minorVersion) :
    c'.Composed where
  worded f := by
    rw [ConfigField.get, hbyte f]
    exact h.worded f
  tight f := by
    rw [hbyte f]
    exact h.tight f
  sides := hsides
  minor := hminor.trans h.minor

theorem Composed.withLocale (h : c.Composed) (l : Locale) : Composed { c with locale := l } :=
  h.congr (fun f => by cases f <;> rfl) h.sides rfl

theorem value_and_mask {w : QualifierWord} (hw : w ∈ QualifierWord.all) :
    w.value &&& w.field.mask = w.value := by
  have hall : ∀ w ∈ QualifierWord.all, w.value &&& w.field.mask = w.value := by decide
  exact hall w hw

theorem Composed.word (h : c.Composed) {w : QualifierWord} (hw : w ∈ QualifierWord.all) :
    (w.field.set w.value c).Composed where
  worded f := by
    have hvalue := value_and_mask hw
    by_cases hf : f = w.field
    · rw [hf, ConfigField.get_set_self hvalue]
      exact Or.inr ⟨w, hw, rfl, rfl⟩
    · rw [ConfigField.get_set_of_ne hf hvalue]
      exact h.worded f
  tight f := by
    rcases ConfigField.byte_setByte f w.field
        ((w.field.byte c &&& ~~~w.field.mask) ||| w.value) c with ⟨-, hbyte⟩ | ⟨-, hbyte, -, hused⟩
    · rw [ConfigField.set, hbyte]
      exact h.tight f
    · rw [ConfigField.set, hbyte, hused]
      exact ConfigField.replace_and_of_subset (h.tight w.field) (value_and_mask hw)
        (ConfigField.mask_and_used w.field)
  sides := by
    have hsides := h.sides
    cases w.field <;> exact hsides
  minor := by
    have hminor := h.minor
    cases w.field <;> exact hminor

end Config

namespace Qualifier

variable {c c' : Config} {token : List Char} {tokens : List (List Char)}

/-! ## What a token changes -/

/-- What a token without a tag and without a language can do to a configuration. -/
inductive Change (c : Config) : Config → Prop where
  | word {w : QualifierWord} (hw : w ∈ QualifierWord.all) : Change c (w.field.set w.value c)
  | density (d : UInt16) : Change c { c with density := d }
  | size (a b : UInt16) : Change c { c with screenWidth := max a b, screenHeight := min a b }
  | number (q : NumberQualifier) (v : UInt16) : Change c (q.set v c)

theorem eq_ok_of_ofResult {result : Except QualifierError Config}
    (h : Meaning.ofResult result = .set c') : result = .ok c' := by
  cases result with
  | ok c => exact congrArg Except.ok (Meaning.set.inj h)
  | error e => cases h

theorem ofResult_ne_language {result : Except QualifierError Config} :
    Meaning.ofResult result ≠ .language c' := by
  intro h
  cases result <;> cases h

theorem change_of_applyNumbered {n : Numbered} (h : applyNumbered c token n = .ok c') :
    Change c c' := by
  unfold applyNumbered at h
  split at h
  · cases h
  · split at h
    · cases h
      exact .number n.qualifier zeroNetwork
    · split at h
      · next value hread =>
          cases h
          exact .number n.qualifier value
      · cases h

theorem change_of_applySize {digits : List Char × List Char}
    (h : applySize c token digits = .ok c') : Change c c' := by
  unfold applySize at h
  cases hfirst : readNumber token digits.1 with
  | error e =>
      rw [hfirst] at h
      cases h
  | ok a =>
      cases hsecond : readNumber token digits.2 with
      | error e =>
          rw [hfirst, hsecond] at h
          cases h
      | ok b =>
          rw [hfirst, hsecond] at h
          cases h
          exact .size a b

/-- A token changes something by one of the rules, or it is a tag. -/
theorem cases_of_meaning (h : meaning c token = .set c') :
    Change c c' ∨ ∃ tag, token = 'b' :: '+' :: tag ∧ c' = { c with locale := taggedLocale tag } := by
  unfold meaning at h
  split at h
  · next w hword =>
      cases h
      exact Or.inl (.word (List.mem_of_find?_eq_some hword))
  · split at h
    · cases h
      exact Or.inl (.density _)
    · split at h
      · next digits _ =>
          have hresult := eq_ok_of_ofResult h
          cases hread : readNumber token digits with
          | error e =>
              rw [hread] at hresult
              cases hresult
          | ok d =>
              rw [hread] at hresult
              cases hresult
              exact Or.inl (.density d)
      · split at h
        · exact Or.inl (change_of_applySize (eq_ok_of_ofResult h))
        · split at h
          · exact Or.inl (change_of_applyNumbered (eq_ok_of_ofResult h))
          · split at h
            · cases h
              exact Or.inr ⟨_, rfl, rfl⟩
            · split at h <;> cases h

theorem change_of_meaning (htag : ¬ ['b', '+'] <+: token) (h : meaning c token = .set c') :
    Change c c' := by
  rcases cases_of_meaning h with hchange | ⟨tag, rfl, -⟩
  · exact hchange
  · exact absurd ⟨tag, rfl⟩ htag

/-- A token that was read as a language is read so wherever no language is set. -/
theorem speaks_of_meaning (h : meaning c token = .language c') :
    c.locale.language.isSet = false ∧ Speaks token ∧
      c' = { c with locale.language := .ofLanguage (Text.asciiBytes token) } := by
  unfold meaning at h
  split at h
  · cases h
  · next hword =>
    split at h
    · cases h
    · next hname =>
      split at h
      · exact absurd h ofResult_ne_language
      · next hdensity =>
        split at h
        · exact absurd h ofResult_ne_language
        · next hsize =>
          split at h
          · exact absurd h ofResult_ne_language
          · next hnumber =>
            split at h
            · cases h
            · next htag =>
              split at h
              · next hboth =>
                rw [Bool.and_eq_true, Bool.not_eq_true'] at hboth
                cases h
                refine ⟨hboth.1, ⟨hboth.2, fun d hd => ?_⟩, rfl⟩
                -- no rule in front of the last one looks at the configuration
                unfold meaning
                simp only [hword, hname, hdensity, hsize, hnumber, hd, hboth.2]
                rfl
              · cases h

/-! ## What reading keeps -/

theorem min_le_max (a b : UInt16) : min a b ≤ max a b := by
  show (if a ≤ b then a else b) ≤ (if a ≤ b then b else a)
  split
  · assumption
  · next h => exact (UInt16.le_total a b).resolve_left h

theorem Change.composed (h : Change c c') (hc : c.Composed) : c'.Composed := by
  cases h with
  | word hw => exact hc.word hw
  | density d => exact hc.congr (fun f => by cases f <;> rfl) hc.sides rfl
  | size a b => exact hc.congr (fun f => by cases f <;> rfl) (min_le_max a b) rfl
  | number q v => cases q <;> exact hc.congr (fun f => by cases f <;> rfl) hc.sides rfl

/-- A change leaves the locale alone. -/
theorem Change.locale_eq (h : Change c c') : c'.locale = c.locale := by
  cases h with
  | @word w hw => cases w.field <;> rfl
  | density d => rfl
  | size a b => rfl
  | number q v => cases q <;> rfl

/-- What a token sets is composed of values with words, whatever the locale becomes. -/
theorem composed_of_set (hc : c.Composed) (h : meaning c token = .set c') : c'.Composed := by
  rcases cases_of_meaning h with hchange | ⟨tag, -, rfl⟩
  · exact hchange.composed hc
  · exact hc.withLocale _

theorem composed_of_language (hc : c.Composed) (h : meaning c token = .language c') :
    c'.Composed := by
  obtain ⟨-, -, rfl⟩ := speaks_of_meaning h
  exact hc.withLocale _

/-- All tokens together compose a configuration of values with words. -/
theorem composed_parseTokens (hc : c.Composed) (h : parseTokens c tokens = .ok c') :
    c'.Composed := by
  fun_induction parseTokens c tokens with
  | case1 c => exact Except.ok.inj h ▸ hc
  | case2 c token last hmeaning => exact Except.ok.inj h ▸ composed_of_set hc hmeaning
  | case3 c token last hmeaning => exact Except.ok.inj h ▸ composed_of_language hc hmeaning
  | case4 | case5 => cases h
  | case6 c token next rest changed hmeaning ih => exact ih (composed_of_set hc hmeaning) h
  | case7 c token next rest changed hmeaning code hregion ih =>
      exact ih ((composed_of_language hc hmeaning).withLocale _) h
  | case8 c token next rest changed hmeaning hregion ih =>
      exact ih (composed_of_language hc hmeaning) h

/-- Where no language is set there is no locale at all. -/
theorem locale_eq_of_unset (hc : c.locale.Spoken) (h : c.locale.language.isSet = false) :
    c.locale = {} := by
  generalize c.locale = l at h hc
  cases hc with
  | unset => rfl
  | language speaks =>
      rw [(languageText_ofLanguage speaks.shape).1] at h
      cases h
  | region speaks _ =>
      rw [(languageText_ofLanguage speaks.shape).1] at h
      cases h

/-- A language is the whole locale then. -/
theorem of_language (hc : c.locale.Spoken) (h : meaning c token = .language c') :
    Speaks token ∧
      c' = { c with locale := { language := .ofLanguage (Text.asciiBytes token) } } := by
  obtain ⟨hunset, hspeaks, hset⟩ := speaks_of_meaning h
  refine ⟨hspeaks, hset.trans ?_⟩
  rw [locale_eq_of_unset hc hunset]

theorem spoken_of_set (htag : ¬ ['b', '+'] <+: token) (hc : c.locale.Spoken)
    (h : meaning c token = .set c') : c'.locale.Spoken :=
  (change_of_meaning htag h).locale_eq ▸ hc

/-- Without tags a locale stays one of a language and a region. -/
theorem spoken_parseTokens (htags : ∀ token ∈ tokens, ¬ ['b', '+'] <+: token)
    (hc : c.locale.Spoken) (h : parseTokens c tokens = .ok c') : c'.locale.Spoken := by
  fun_induction parseTokens c tokens with
  | case1 c => exact Except.ok.inj h ▸ hc
  | case2 c token last hmeaning =>
      exact Except.ok.inj h ▸ spoken_of_set (htags token List.mem_cons_self) hc hmeaning
  | case3 c token last hmeaning =>
      obtain ⟨hspeaks, rfl⟩ := of_language hc hmeaning
      exact Except.ok.inj h ▸ .language hspeaks
  | case4 | case5 => cases h
  | case6 c token next rest changed hmeaning ih =>
      obtain ⟨htag, htags⟩ := List.forall_mem_cons.mp htags
      exact ih htags (spoken_of_set htag hc hmeaning) h
  | case7 c token next rest changed hmeaning code hregion ih =>
      obtain ⟨hspeaks, rfl⟩ := of_language hc hmeaning
      obtain rfl := eq_of_regionCode? hregion
      have hrest := (List.forall_mem_cons.mp (List.forall_mem_cons.mp htags).2).2
      exact ih hrest (.region hspeaks hregion) h
  | case8 c token next rest changed hmeaning hregion ih =>
      obtain ⟨hspeaks, rfl⟩ := of_language hc hmeaning
      obtain ⟨-, htags⟩ := List.forall_mem_cons.mp htags
      exact ih htags (.language hspeaks) h

end Qualifier

namespace Config

/-- A text without a tag: none of its qualifiers starts with `b+`. -/
def WithoutTag (s : String) : Prop :=
  ∀ token ∈ (s.toList.map Char.toLower).splitOn '-', ¬ ['b', '+'] <+: token

theorem composed_ofQualifiers {s : String} {c : Config} (h : ofQualifiers s = .ok c) :
    c.Composed := by
  unfold ofQualifiers at h
  split at h
  · exact Except.ok.inj h ▸ composed_default
  · exact Qualifier.composed_parseTokens composed_default h

theorem expressible_ofQualifiers {s : String} {c : Config} (hs : WithoutTag s)
    (h : ofQualifiers s = .ok c) : c.Expressible where
  toComposed := composed_ofQualifiers h
  spoken := by
    unfold ofQualifiers at h
    split at h
    · exact Except.ok.inj h ▸ .unset
    · exact Qualifier.spoken_parseTokens hs .unset h

end Config

end AppResources
