import AppResources.Proofs.ExpressibleConfig

/-!
# Printed qualifiers are read back

The qualifiers of a configuration are printed in one order, whatever order they were written
in. Every section of the print is read back as its part of the configuration: it starts from
a configuration in which this part is still unset and leaves the other parts as they are. A
language needs that no region follows by accident.

## Main definitions

* `Qualifier.Reads`: what some tokens do, whatever follows them.
* `Qualifier.ReadBack`: a locale that its qualifiers describe.

## Main results

* `parseTokens_qualifiers`: the qualifiers of a configuration composed of values with words
  describe it if its locale is read back.
* `ofQualifiers_text`: the text of what qualifiers describe describes the same.
-/

namespace AppResources

namespace Qualifier

variable {c d d' d'' : Config} {token : List Char} {rest tokens : List (List Char)}

/-! ## Sections -/

theorem parseTokens_set (h : meaning d token = .set d') :
    parseTokens d (token :: rest) = parseTokens d' rest := by
  cases rest with
  | nil =>
      unfold parseTokens
      rw [h]
  | cons next rest =>
      rw [parseTokens, h]

theorem parseTokens_refused {e : QualifierError} (h : meaning d token = .refused e) :
    parseTokens d (token :: rest) = .error e := by
  cases rest with
  | nil =>
      unfold parseTokens
      rw [h]
  | cons next rest => rw [parseTokens, h]

/-- A language that its region does not follow. -/
theorem parseTokens_language_of_head? (h : meaning d token = .language d')
    (hrest : ∀ t ∈ rest.head?, regionCode? t = none) :
    parseTokens d (token :: rest) = parseTokens d' rest := by
  cases rest with
  | nil =>
      unfold parseTokens
      rw [h]
  | cons next rest =>
      rw [parseTokens, h]
      dsimp only
      rw [hrest next rfl]

theorem parseTokens_language (h : meaning d token = .language d')
    (hrest : ∀ t ∈ rest, regionCode? t = none) :
    parseTokens d (token :: rest) = parseTokens d' rest :=
  parseTokens_language_of_head? h fun t ht => hrest t (List.mem_of_mem_head? ht)

theorem parseTokens_region {next code : List Char} (h : meaning d token = .language d')
    (hcode : regionCode? next = some code) :
    parseTokens d (token :: next :: rest) =
      parseTokens { d' with locale.region := .ofRegion (Text.asciiBytes code) } rest := by
  rw [parseTokens, h]
  dsimp only
  rw [hcode]

/-- The tokens turn one configuration into the other, whatever follows. -/
def Reads (tokens : List (List Char)) (d d' : Config) : Prop :=
  ∀ rest, parseTokens d (tokens ++ rest) = parseTokens d' rest

theorem reads_nil (h : d = d') : Reads [] d d' := fun _ => h ▸ rfl

theorem reads_single (h : meaning d token = .set d') : Reads [token] d d' :=
  fun _ => parseTokens_set h

theorem Reads.append (hfirst : Reads tokens d d') (hrest : Reads rest d' d'') :
    Reads (tokens ++ rest) d d'' := fun more => by
  rw [List.append_assoc, hfirst, hrest]

/-! ## Fields -/

theorem set_get {f : ConfigField} {m : UInt8} (hd : f.byte d = f.byte c &&& m)
    (hm : m &&& f.mask = 0) :
    f.set (f.get c) d = f.setByte (f.byte c &&& (m ||| f.mask)) d := by
  have hbits : (f.byte c &&& m) &&& ~~~f.mask ||| f.byte c &&& f.mask =
      f.byte c &&& (m ||| f.mask) := by
    rw [ConfigField.bits_eq_iff] at hm ⊢
    intro i hi
    have hapart := hm i hi
    simp at hapart ⊢
    grind
  rw [ConfigField.set, ConfigField.get, hd, hbits]

theorem setByte_byte (f : ConfigField) (d : Config) : f.setByte (f.byte d) d = d := by
  cases f <;> rfl

/-- A field is read back; `m` has the bits of its byte that were read before. -/
theorem reads_field (f : ConfigField) (m : UInt8) (h : c.Composed)
    (hd : f.byte d = f.byte c &&& m) (hm : m &&& f.mask = 0) :
    Reads (Config.fieldQualifier f c) d (f.setByte (f.byte c &&& (m ||| f.mask)) d) := by
  unfold Config.fieldQualifier
  by_cases hzero : f.get c = 0
  · rw [if_pos hzero]
    refine reads_nil ?_
    have hbits : f.byte c &&& (m ||| f.mask) = f.byte d := by
      rw [hd]
      rw [ConfigField.get, ConfigField.bits_eq_iff] at hzero
      rw [ConfigField.bits_eq_iff]
      intro i hi
      have hnone := hzero i hi
      simp at hnone ⊢
      grind
    rw [hbits, setByte_byte]
  · rw [if_neg hzero]
    obtain ⟨w, hw, hfield, hvalue⟩ := (h.worded f).resolve_left hzero
    have hfound : (QualifierWord.all.find? fun w =>
        w.field == f && w.value == f.get c).isSome = true := by
      rw [List.find?_isSome]
      refine ⟨w, hw, ?_⟩
      rw [hfield, hvalue]
      simp
    obtain ⟨w', hw'⟩ := Option.isSome_iff_exists.mp hfound
    have hmem := List.mem_of_find?_eq_some hw'
    have hboth := List.find?_some hw'
    rw [Bool.and_eq_true, beq_iff_eq, beq_iff_eq] at hboth
    rw [QualifierWord.ofField?, hw']
    refine reads_single ((meaning_word hmem d).trans (congrArg Meaning.set ?_))
    rw [hboth.1, hboth.2, set_get hd hm]

/-- The first field of a byte is read back. -/
theorem reads_firstField (f : ConfigField) (h : c.Composed) (hd : f.byte d = 0) :
    Reads (Config.fieldQualifier f c) d (f.setByte (f.byte c &&& f.mask) d) := by
  have hread := reads_field f 0 h (hd.trans UInt8.and_zero.symm) UInt8.zero_and
  rwa [UInt8.zero_or] at hread

theorem plain_field (f : ConfigField) (c : Config) :
    ∀ t ∈ Config.fieldQualifier f c, Plain t := by
  unfold Config.fieldQualifier QualifierWord.ofField?
  split
  · simp
  · intro t ht
    rw [Option.mem_toList, Option.map_eq_some_iff] at ht
    obtain ⟨w, hw, rfl⟩ := ht
    exact plain_word (List.mem_of_find?_eq_some hw)

/-! ## Numbers -/

theorem reads_number (q : NumberQualifier) (v : UInt16) (hd : q.set 0 d = d) :
    Reads (Config.numberQualifier q v) d (q.set v d) := by
  unfold Config.numberQualifier
  by_cases hv : v = 0
  · rw [if_pos hv]
    exact reads_nil (by rw [hv, hd])
  · rw [if_neg hv]
    exact reads_single (meaning_number d hv)

theorem plain_number (q : NumberQualifier) (v : UInt16) :
    ∀ t ∈ Config.numberQualifier q v, Plain t := by
  unfold Config.numberQualifier
  split
  · simp
  · rw [List.forall_mem_singleton]
    exact plain_numberToken q v

theorem reads_network (v : UInt16) (hd : NumberQualifier.mnc.set 0 d = d) :
    Reads (Config.networkQualifier v) d (NumberQualifier.mnc.set v d) := by
  unfold Config.networkQualifier
  split
  · next hv =>
      rw [hv]
      exact reads_single (meaning_zeroNetwork d)
  · exact reads_number .mnc v hd

theorem plain_network (v : UInt16) : ∀ t ∈ Config.networkQualifier v, Plain t := by
  unfold Config.networkQualifier
  split
  · rw [List.forall_mem_singleton]
    exact plain_of_isSmall rfl rfl
  · exact plain_number .mnc v

theorem reads_density (v : UInt16) (hd : { d with density := 0 } = d) :
    Reads (Config.densityQualifier v) d { d with density := v } := by
  unfold Config.densityQualifier
  split
  · next hv => exact reads_nil (by rw [hv, hd])
  · split
    · next name hname =>
        have hvalue : name.2 = v := by simpa using List.find?_some hname
        rw [← hvalue]
        exact reads_single (meaning_densityName (List.mem_of_find?_eq_some hname) d)
    · exact reads_single (meaning_density d v)

theorem plain_density (v : UInt16) : ∀ t ∈ Config.densityQualifier v, Plain t := by
  unfold Config.densityQualifier
  split
  · simp
  · split
    · next name hname =>
        rw [List.forall_mem_singleton]
        exact plain_densityName (List.mem_of_find?_eq_some hname)
    · rw [List.forall_mem_singleton]
      exact plain_densityToken v

theorem pair_eq_zero_iff {a b : UInt16} : Config.pair a b = 0 ↔ a = 0 ∧ b = 0 := by
  rw [← UInt16.toNat_inj, ← UInt16.toNat_inj]
  show a.toNat + 65536 * b.toNat = 0 ↔ a.toNat = 0 ∧ b.toNat = 0
  omega

theorem reads_size (h : c.Composed)
    (hd : { d with screenWidth := 0, screenHeight := 0 } = d) :
    Reads (Config.sizeQualifier c) d
      { d with screenWidth := c.screenWidth, screenHeight := c.screenHeight } := by
  unfold Config.sizeQualifier
  split
  · next hzero =>
      obtain ⟨hwidth, hheight⟩ := pair_eq_zero_iff.mp hzero
      exact reads_nil (by rw [hwidth, hheight, hd])
  · have hmax : max c.screenWidth c.screenHeight = c.screenWidth := by
      show (if c.screenWidth ≤ c.screenHeight then c.screenHeight else c.screenWidth) = _
      split
      · next hle => exact UInt16.le_antisymm h.sides hle
      · rfl
    have hmin : min c.screenWidth c.screenHeight = c.screenHeight := by
      show (if c.screenWidth ≤ c.screenHeight then c.screenWidth else c.screenHeight) = _
      split
      · next hle => exact UInt16.le_antisymm hle h.sides
      · rfl
    have hmeaning := meaning_size d c.screenWidth c.screenHeight
    rw [hmax, hmin] at hmeaning
    exact reads_single hmeaning

theorem plain_size (c : Config) : ∀ t ∈ Config.sizeQualifier c, Plain t := by
  unfold Config.sizeQualifier
  split
  · simp
  · rw [List.forall_mem_singleton]
    exact plain_sizeToken c.screenWidth c.screenHeight

theorem versionQualifier_eq (h : c.minorVersion = 0) :
    Config.versionQualifier c = Config.numberQualifier .version c.sdkVersion := by
  unfold Config.versionQualifier Config.numberQualifier Config.versionWord
  rw [h]
  by_cases hversion : c.sdkVersion = 0
  · rw [if_pos (pair_eq_zero_iff.mpr ⟨hversion, rfl⟩), if_pos hversion]
  · rw [if_neg fun hzero => hversion (pair_eq_zero_iff.mp hzero).1, if_neg hversion]
    rfl

/-! ## Locales -/

/-- Tokens in small letters. -/
def lowered (tokens : List (List Char)) : List (List Char) := tokens.map (·.map Char.toLower)

theorem lowered_append : lowered (tokens ++ rest) = lowered tokens ++ lowered rest :=
  List.map_append

theorem lowered_of_plain (h : ∀ t ∈ tokens, Plain t) : lowered tokens = tokens :=
  (List.map_congr_left fun t ht => (h t ht).small).trans (List.map_id tokens)

theorem qualifiers_of_bare {l : Locale} (hset : l.language.isSet = true)
    (hbare : (l.hasOwnScript || l.hasVariant || l.hasNumbering) = false) :
    l.qualifiers = l.language.languageText ::
      (if l.region.isSet then ['r' :: l.region.regionText] else []) := by
  unfold Locale.qualifiers
  rw [hset, hbare]
  rfl

theorem lowered_language (h : Speaks token) :
    lowered (Locale.qualifiers { language := .ofLanguage (Text.asciiBytes token) }) = [token] := by
  obtain ⟨hisSet, htext⟩ := languageText_ofLanguage h.shape
  rw [qualifiers_of_bare hisSet rfl, htext]
  show [token.map Char.toLower] = [token]
  rw [map_toLower_of_isSmall (isSmall_of_isLanguage h.shape)]

theorem lowered_region {code : List Char} (h : Speaks token)
    (hcode : regionCode? ('r' :: code) = some code) :
    lowered (Locale.qualifiers {
      language := .ofLanguage (Text.asciiBytes token)
      region := .ofRegion (Text.asciiBytes code) }) = [token, 'r' :: code] := by
  obtain ⟨hisSet, htext⟩ := languageText_ofLanguage h.shape
  obtain ⟨hregion, hregionText⟩ := regionText_ofRegion hcode
  rw [qualifiers_of_bare hisSet rfl, htext, if_pos hregion]
  show [token.map Char.toLower, 'r' :: (Subtag.regionText _).map Char.toLower] = _
  rw [map_toLower_of_isSmall (isSmall_of_isLanguage h.shape), hregionText]

/-- A locale whose qualifiers are split off whole and describe it, if no region follows by
accident. -/
structure ReadBack (l : Locale) : Prop where
  dashless : ∀ t ∈ lowered l.qualifiers, '-' ∉ t
  parse : ∀ (d : Config) (rest : List (List Char)), d.locale = {} →
    (∀ t ∈ rest, regionCode? t = none) →
    parseTokens d (lowered l.qualifiers ++ rest) = parseTokens { d with locale := l } rest

/-- A spoken locale is read back if no region follows by accident. -/
theorem parseTokens_spoken {l : Locale} (h : l.Spoken) (hd : d.locale = {})
    (hrest : ∀ t ∈ rest, regionCode? t = none) :
    parseTokens d (lowered l.qualifiers ++ rest) = parseTokens { d with locale := l } rest := by
  cases h with
  | unset =>
      have hsame : { d with locale := {} } = d := by rw [← hd]
      rw [hsame]
      rfl
  | @language token speaks =>
      have hmeaning := speaks.meaning_eq d (by rw [hd]; rfl)
      rw [hd] at hmeaning
      rw [lowered_language speaks]
      exact parseTokens_language hmeaning hrest
  | @region token code speaks hcode =>
      have hmeaning := speaks.meaning_eq d (by rw [hd]; rfl)
      rw [hd] at hmeaning
      rw [lowered_region speaks hcode]
      exact parseTokens_region hmeaning hcode

theorem dashless_spoken {l : Locale} (h : l.Spoken) :
    ∀ t ∈ lowered l.qualifiers, '-' ∉ t := by
  cases h with
  | unset => exact fun t ht => absurd ht List.not_mem_nil
  | language speaks =>
      rw [lowered_language speaks, List.forall_mem_singleton]
      exact dashless_of_isSmall (isSmall_of_isLanguage speaks.shape)
  | region speaks hcode =>
      rw [lowered_region speaks hcode, List.forall_mem_cons, List.forall_mem_singleton]
      exact ⟨dashless_of_isSmall (isSmall_of_isLanguage speaks.shape),
        dashless_of_isSmall (isSmall_of_regionCode? hcode)⟩

theorem readBack_of_spoken {l : Locale} (h : l.Spoken) : ReadBack l :=
  ⟨dashless_spoken h, fun _ _ => parseTokens_spoken h⟩

/-! ## All sections -/

/-- The sections behind the locale. -/
def laterSections (c : Config) : List (List (List Char)) :=
  [ Config.fieldQualifier .layoutDirection c
  , Config.numberQualifier .smallestWidth c.smallestWidthDp
  , Config.numberQualifier .width c.widthDp
  , Config.numberQualifier .height c.heightDp
  , Config.fieldQualifier .sizeClass c
  , Config.fieldQualifier .aspect c
  , Config.fieldQualifier .roundness c
  , Config.fieldQualifier .gamut c
  , Config.fieldQualifier .dynamicRange c
  , Config.fieldQualifier .orientation c
  , Config.fieldQualifier .deviceKind c
  , Config.fieldQualifier .night c
  , Config.densityQualifier c.density
  , Config.fieldQualifier .touchscreen c
  , Config.fieldQualifier .keysHidden c
  , Config.fieldQualifier .keyboard c
  , Config.fieldQualifier .navigationHidden c
  , Config.fieldQualifier .navigation c
  , Config.sizeQualifier c
  , Config.versionQualifier c ]

theorem qualifiers_eq (c : Config) :
    c.qualifiers = Config.numberQualifier .mcc c.mcc ++
      (Config.networkQualifier c.mnc ++ (c.locale.qualifiers ++ (laterSections c).flatten)) := rfl

theorem plain_laterSections (h : c.minorVersion = 0) :
    ∀ t ∈ (laterSections c).flatten, Plain t := by
  have hsections : ∀ tokens ∈ laterSections c, ∀ t ∈ tokens, Plain t := by
    unfold laterSections
    rw [versionQualifier_eq h]
    simp only [List.forall_mem_cons, List.not_mem_nil, false_implies, implies_true, and_true]
    refine ⟨?_, ?_, ?_, ?_, ?_, ?_, ?_, ?_, ?_, ?_, ?_, ?_, ?_, ?_, ?_, ?_, ?_, ?_, ?_, ?_⟩
    all_goals
      first
      | exact plain_field _ c
      | exact plain_number _ _
      | exact plain_density _
      | exact plain_size c
  intro t ht
  obtain ⟨tokens, htokens, ht⟩ := List.mem_flatten.mp ht
  exact hsections tokens htokens t ht

/-- The sections behind the locale are read back. -/
theorem reads_laterSections (h : c.Composed) :
    Reads (laterSections c).flatten { Config.default with
      mcc := c.mcc, mnc := c.mnc, locale := c.locale } c := by
  unfold laterSections
  rw [versionQualifier_eq h.minor]
  refine (reads_firstField .layoutDirection h rfl).append ?_
  refine (reads_number .smallestWidth _ rfl).append ?_
  refine (reads_number .width _ rfl).append ?_
  refine (reads_number .height _ rfl).append ?_
  refine (reads_field .sizeClass 0xc0 h rfl rfl).append ?_
  refine (reads_field .aspect 0xcf h rfl rfl).append ?_
  refine (reads_firstField .roundness h rfl).append ?_
  refine (reads_firstField .gamut h rfl).append ?_
  refine (reads_field .dynamicRange 0x03 h rfl rfl).append ?_
  refine (reads_firstField .orientation h rfl).append ?_
  refine (reads_firstField .deviceKind h rfl).append ?_
  refine (reads_field .night 0x0f h rfl rfl).append ?_
  refine (reads_density _ rfl).append ?_
  refine (reads_firstField .touchscreen h rfl).append ?_
  refine (reads_firstField .keysHidden h rfl).append ?_
  refine (reads_firstField .keyboard h rfl).append ?_
  refine (reads_field .navigationHidden 0x03 h rfl rfl).append ?_
  refine (reads_firstField .navigation h rfl).append ?_
  refine (reads_size h rfl).append ?_
  refine (reads_number .version _ rfl).append ?_
  refine reads_nil ?_
  dsimp only [ConfigField.setByte, ConfigField.byte, ConfigField.mask, NumberQualifier.set]
  have hlayout : c.screenLayout &&& 0xff = c.screenLayout := h.tight .aspect
  have hlayout2 : c.screenLayout2 &&& 0x03 = c.screenLayout2 := h.tight .roundness
  have hcolor : c.colorMode &&& 0x0f = c.colorMode := h.tight .gamut
  have horientation : c.orientation &&& 0xff = c.orientation := h.tight .orientation
  have hmode : c.uiMode &&& 0x3f = c.uiMode := h.tight .night
  have htouchscreen : c.touchscreen &&& 0xff = c.touchscreen := h.tight .touchscreen
  have hinput : c.inputFlags &&& 0x0f = c.inputFlags := h.tight .keysHidden
  have hkeyboard : c.keyboard &&& 0xff = c.keyboard := h.tight .keyboard
  have hnavigation : c.navigation &&& 0xff = c.navigation := h.tight .navigation
  show { c with
    screenLayout := c.screenLayout &&& 0xff, screenLayout2 := c.screenLayout2 &&& 0x03,
    colorMode := c.colorMode &&& 0x0f, orientation := c.orientation &&& 0xff,
    uiMode := c.uiMode &&& 0x3f, touchscreen := c.touchscreen &&& 0xff,
    inputFlags := c.inputFlags &&& 0x0f, keyboard := c.keyboard &&& 0xff,
    navigation := c.navigation &&& 0xff, minorVersion := 0 } = c
  rw [hlayout, hlayout2, hcolor, horientation, hmode, htouchscreen, hinput, hkeyboard,
    hnavigation, ← h.minor]

/-- Only a locale has letters in capitals. -/
theorem lowered_qualifiers (h : c.minorVersion = 0) :
    lowered c.qualifiers = Config.numberQualifier .mcc c.mcc ++
      (Config.networkQualifier c.mnc ++
        (lowered c.locale.qualifiers ++ (laterSections c).flatten)) := by
  rw [qualifiers_eq, lowered_append, lowered_append, lowered_append,
    lowered_of_plain (plain_number .mcc c.mcc), lowered_of_plain (plain_network c.mnc),
    lowered_of_plain (plain_laterSections h)]

/-- Besides those of the locale all tokens are plain. -/
theorem forall_lowered_qualifiers {p : List Char → Prop} (h : c.minorVersion = 0)
    (hplain : ∀ t, Plain t → p t) (hlocale : ∀ t ∈ lowered c.locale.qualifiers, p t) :
    ∀ t ∈ lowered c.qualifiers, p t := by
  rw [lowered_qualifiers h]
  simp only [List.forall_mem_append]
  exact ⟨fun t ht => hplain t (plain_number .mcc c.mcc t ht),
    fun t ht => hplain t (plain_network c.mnc t ht), hlocale,
    fun t ht => hplain t (plain_laterSections h t ht)⟩

/-- The qualifiers of a composed configuration describe it if its locale is read back. -/
theorem parseTokens_qualifiers (h : c.Composed) (hlocale : ReadBack c.locale) :
    parseTokens Config.default (lowered c.qualifiers) = .ok c := by
  have hlater := plain_laterSections h.minor
  rw [lowered_qualifiers h.minor, reads_number .mcc c.mcc rfl, reads_network c.mnc rfl,
    hlocale.parse _ _ rfl fun t ht => (hlater t ht).noRegion]
  have hread := reads_laterSections h []
  rwa [List.append_nil] at hread

end Qualifier

namespace Config

open Qualifier

variable {c : Config}

/-- The tokens of the printed qualifiers. -/
theorem splitOn_text (h : c.minorVersion = 0) (hlocale : ∀ t ∈ lowered c.locale.qualifiers, '-' ∉ t)
    (hne : c.qualifiers ≠ []) :
    (c.text.toList.map Char.toLower).splitOn '-' = lowered c.qualifiers := by
  have htext : c.text = String.ofList (['-'].intercalate c.qualifiers) := by
    unfold text
    split
    · next hnone => exact absurd hnone hne
    · rfl
  have hdashless := forall_lowered_qualifiers h (fun t ht => ht.dashless) hlocale
  rw [htext, String.toList_ofList, Text.map_intercalate]
  exact List.splitOn_intercalate '-' hdashless (by simpa [lowered] using hne)

/-- A configuration composed of values with words is read back from its text if its locale
is. -/
theorem ofQualifiers_text_of_composed (h : c.Composed) (hlocale : ReadBack c.locale) :
    ofQualifiers c.text = .ok c := by
  have hparse := parseTokens_qualifiers h hlocale
  by_cases hnone : c.qualifiers = []
  · have htext : c.text = "default" := by
      rw [text, hnone]
    rw [hnone] at hparse
    rw [htext]
    exact hparse
  · rw [← splitOn_text h.minor hlocale.dashless hnone] at hparse
    unfold ofQualifiers
    split
    · next hword =>
        -- neither word is read as tokens
        rcases hword with hword | hword <;> rw [hword] at hparse <;> cases hparse
    · exact hparse

/-- An expressible configuration is read back from its text. -/
theorem ofQualifiers_text_of_expressible (h : c.Expressible) : ofQualifiers c.text = .ok c :=
  ofQualifiers_text_of_composed h.toComposed (readBack_of_spoken h.spoken)

/-! ## The least version -/

theorem Expressible.withLeastVersion (h : c.Expressible) : c.withLeastVersion.Expressible := by
  unfold Config.withLeastVersion
  split
  · exact ⟨h.toComposed.congr (fun f => by cases f <;> rfl) h.sides rfl, h.spoken⟩
  · exact h

/-- The least version does not depend on the version. -/
theorem leastVersion_withLeastVersion (c : Config) :
    c.withLeastVersion.leastVersion = c.leastVersion := by
  unfold withLeastVersion
  split <;> rfl

theorem withLeastVersion_idem (c : Config) :
    c.withLeastVersion.withLeastVersion = c.withLeastVersion := by
  have hle : ¬ c.withLeastVersion.sdkVersion < c.withLeastVersion.leastVersion := by
    rw [leastVersion_withLeastVersion]
    unfold withLeastVersion
    split
    · exact UInt16.lt_irrefl _
    · assumption
  rw [withLeastVersion, if_neg hle]

/-- The text of what qualifiers without a tag describe describes the same, with the least
version and without it. -/
theorem ofQualifiers_text {s : String} (hs : WithoutTag s) :
    (∀ c, ofQualifiers s = .ok c → ofQualifiers c.text = .ok c) ∧
      ∀ c, ofVersionedQualifiers s = .ok c → ofVersionedQualifiers c.text = .ok c := by
  constructor
  · intro c h
    exact ofQualifiers_text_of_expressible (expressible_ofQualifiers hs h)
  · intro c h
    unfold ofVersionedQualifiers at h ⊢
    cases hplain : ofQualifiers s with
    | error e =>
        rw [hplain] at h
        cases h
    | ok d =>
        rw [hplain] at h
        cases h
        have hexpressible := (expressible_ofQualifiers hs hplain).withLeastVersion
        rw [ofQualifiers_text_of_expressible hexpressible]
        exact congrArg Except.ok (withLeastVersion_idem d)

/-- A word in capitals, the network code zero with more zeros, a size with its smaller side
first, and an order that is not that of the print. -/
theorem ofQualifiers_text_filipino :
    (∃ c, ofQualifiers "anydpi-MNC000-fil-rPH-320x00480-car" = .ok c ∧
      ofQualifiers c.text = .ok c) ∧
    ∃ c, ofVersionedQualifiers "anydpi-MNC000-fil-rPH-320x00480-car" = .ok c ∧
      ofVersionedQualifiers c.text = .ok c := by
  have hs : WithoutTag "anydpi-MNC000-fil-rPH-320x00480-car" := by
    unfold WithoutTag
    decide +kernel
  have hok : (ofQualifiers "anydpi-MNC000-fil-rPH-320x00480-car").isOk = true := by
    decide +kernel
  cases hread : ofQualifiers "anydpi-MNC000-fil-rPH-320x00480-car" with
  | error e =>
      rw [hread] at hok
      cases hok
  | ok c =>
      have hversioned : ofVersionedQualifiers "anydpi-MNC000-fil-rPH-320x00480-car" =
          .ok c.withLeastVersion := congrArg (Except.map Config.withLeastVersion) hread
      exact ⟨⟨c, rfl, (ofQualifiers_text hs).1 c hread⟩,
        c.withLeastVersion, hversioned, (ofQualifiers_text hs).2 _ hversioned⟩

end Config

end AppResources
