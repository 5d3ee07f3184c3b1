import AppResources.Config.Matching
import AppResources.Proofs.RegionOrder

/-!
# Circles among locales

Locales that fit a request either have no language or the requested one. Among
themselves the ones with a language are ordered, and so are the ones without. Between the
two kinds only the region of the one with a language counts: it is *favoured* over all
locales without language, or all of these are better. So three locales form a circle only
if a favoured one comes before one without language, that one before one that is not
favoured, and the order of regions puts the latter before the favoured one.

For a request in American English that never happens, because the favoured regions come
first in the order of regions. For a request in another region whose English follows the
American one it happens: regions are favoured by a list, and the order of regions does not
know the list.

## Main results

* `coherent_prefer`: the preference between locales is coherent.
* `circular_prefer_iff`: its circles are exactly the splits of `AmericanSplit`.
-/

namespace AppResources

namespace Locale

open Preference

/-- Language and region are each none or a code. -/
structure WellFormed (l : Locale) : Prop where
  /-- The language is none or a code. -/
  language : l.language.WellFormed
  /-- The region is none or a code. -/
  region : l.region.WellFormed

instance (l : Locale) : Decidable l.WellFormed :=
  decidable_of_iff (l.language.WellFormed ∧ l.region.WellFormed)
    ⟨fun h => ⟨h.1, h.2⟩, fun h => ⟨h.language, h.region⟩⟩

/-- A locale of a variant that fits a request. -/
structure Contends (request l : Locale) : Prop where
  /-- Its codes are well-formed. -/
  wellFormed : l.WellFormed
  /-- It asks for nothing, or for what is requested. -/
  fits : l.code = 0 ∨ l.fits request = true

/-- The locale that serves a request better. -/
def prefer (request a b : Locale) : Preference :=
  if a.isBetter b request then some true
  else if b.isBetter a request then some false
  else none

/-- Three locales that form a circle: `near` is better than `bare`, `bare` than `far`, and
`far` than `near`. The request is in English as it is spoken outside of the United States,
but in a region that follows them. -/
structure AmericanSplit (request near bare far : Locale) : Prop where
  /-- The request is in English. -/
  english : request.language = .english
  /-- It is not in the English of the United States. -/
  elsewhere : request.region ≠ .unitedStates
  /-- It is in an English that follows the American one. -/
  american : RegionTree.followsAmericanEnglish request.region = true
  /-- The first locale has a language. -/
  near_language : near.language.isSet = true
  /-- Its region follows American English. -/
  near_region : RegionTree.followsAmericanEnglish near.region = true
  /-- The second locale has no language. -/
  bare_language : bare.language.isSet = false
  /-- The third locale has a language. -/
  far_language : far.language.isSet = true
  /-- Its region does not follow American English. -/
  far_region : RegionTree.followsAmericanEnglish far.region = false
  /-- In the tree of regions the third locale is nevertheless the better one. -/
  far_first : RegionTree.compareFor far.region near.region request.language request.script
    request.region = .gt

variable {request a b c : Locale}

/-! ## Languages -/

theorem code_eq_zero_iff : a.code = 0 ↔ a.language = .none ∧ a.region = .none := by
  constructor
  · intro h
    unfold code at h
    exact ⟨Subtag.ext_toNat (show _ = 0 by omega) (show _ = 0 by omega),
      Subtag.ext_toNat (show _ = 0 by omega) (show _ = 0 by omega)⟩
  · rintro ⟨hlanguage, hregion⟩
    rw [code, hlanguage, hregion]
    rfl

theorem code_ne_zero (h : a.language.isSet = true) : a.code ≠ 0 := by
  intro hzero
  rw [(code_eq_zero_iff.mp hzero).1] at h
  cases h

theorem sameLanguage_iff {s t : Subtag} :
    Subtag.sameLanguage s t = true ↔
      s = t ∨ (s = .tagalog ∧ t = .filipino) ∨ (s = .filipino ∧ t = .tagalog) := by
  simp [Subtag.sameLanguage, or_assoc]

theorem sameLanguage_of_both {s t u : Subtag} (hs : Subtag.sameLanguage s u = true)
    (ht : Subtag.sameLanguage t u = true) : Subtag.sameLanguage s t = true := by
  rw [sameLanguage_iff] at *
  grind [Subtag.tagalog, Subtag.filipino]

theorem sameLanguage_none {s : Subtag} (hs : s.isSet = true) :
    Subtag.sameLanguage s .none = false ∧ Subtag.sameLanguage .none s = false := by
  have hne : s ≠ .none := by
    rintro rfl
    cases hs
  constructor
  · rw [Bool.eq_false_iff, ne_eq, sameLanguage_iff]
    rintro (h | ⟨_, h⟩ | ⟨_, h⟩)
    · exact hne h
    · cases h
    · cases h
  · rw [Bool.eq_false_iff, ne_eq, sameLanguage_iff]
    rintro (h | ⟨h, _⟩ | ⟨h, _⟩)
    · exact hne h.symm
    · cases h
    · cases h

/-- A locale that fits a request and has a language has the requested one. -/
theorem Contends.sameLanguage (ha : Contends request a) (hset : a.language.isSet = true) :
    Subtag.sameLanguage a.language request.language = true := by
  rcases ha.fits with h | h
  · rw [(code_eq_zero_iff.mp h).1] at hset
    cases hset
  · unfold Locale.fits at h
    rw [Bool.and_eq_true, hset] at h
    simpa using h.1

theorem Contends.language_eq_none (ha : Contends request a) (h : a.language.isSet = false) :
    a.language = .none :=
  ha.wellFormed.language.eq_none h

/-- Locales that fit one request have the same language, if both or none of them has one. -/
theorem Contends.sameLanguage_both (ha : Contends request a) (hb : Contends request b)
    (h : a.language.isSet = b.language.isSet) :
    Subtag.sameLanguage a.language b.language = true := by
  cases hset : a.language.isSet with
  | true => exact sameLanguage_of_both (ha.sameLanguage hset) (hb.sameLanguage (h ▸ hset))
  | false =>
      rw [ha.language_eq_none hset, hb.language_eq_none (h ▸ hset)]
      rfl

/-! ## Locales of one kind -/

/-- Whether a locale that names a language or region has the requested variant. -/
def hasVariantOf (request l : Locale) : Bool := l.code != 0 && l.variant == request.variant

/-- Whether a locale that names a language or region has the requested numbering system. -/
def hasNumberingOf (request l : Locale) : Bool :=
  l.code != 0 && l.numbering == request.numbering

/-- The better one of two locales with one language and one region, or none. -/
def preferDetails (request a b : Locale) : Preference :=
  (Preference.having (hasVariantOf request a) (hasVariantOf request b)).or
    ((Preference.having (hasNumberingOf request a) (hasNumberingOf request b)).or
      (Preference.having (a.language == request.language) (b.language == request.language)))

/-- The better one of two locales with the same language, or none. -/
def preferAmongSame (request a b : Locale) : Preference :=
  (RegionTree.prefer request.language request.script request.region a.region b.region).or
    (preferDetails request a b)

theorem ranks_preferAmongSame : Ranks WellFormed (preferAmongSame request) :=
  (RegionTree.ranks_prefer.comap region fun _ => WellFormed.region).or
    ((ranks_having (hasVariantOf request)).or
      ((ranks_having (hasNumberingOf request)).or
        (ranks_having fun l : Locale => l.language == request.language)))

theorem region_eq_of_preferAmongSame (ha : a.WellFormed) (hb : b.WellFormed)
    (h : preferAmongSame request a b = none) : a.region = b.region := by
  rw [preferAmongSame, Option.or_eq_none_iff] at h
  exact (RegionTree.prefer_eq_none_iff ha.region hb.region).mp h.1

theorem preferAmongSame_of_region_ne (ha : a.WellFormed) (hb : b.WellFormed)
    (h : a.region ≠ b.region) :
    preferAmongSame request a b =
      RegionTree.prefer request.language request.script request.region a.region b.region := by
  unfold preferAmongSame
  cases hp : RegionTree.prefer request.language request.script request.region a.region
    b.region with
  | none => exact absurd ((RegionTree.prefer_eq_none_iff ha.region hb.region).mp hp) h
  | some x => rfl

theorem preferAmongSame_of_region_eq (ha : a.WellFormed) (h : a.region = b.region) :
    preferAmongSame request a b = preferDetails request a b := by
  rw [preferAmongSame, ← h, RegionTree.ranks_prefer.irrefl ha.region]
  rfl

/-- With one region and one language, of which one at least is set, the details decide. -/
theorem isBetter_of_region_eq (hrequest : request.code ≠ 0) (ha : a.code ≠ 0) (hb : b.code ≠ 0)
    (hlanguage : Subtag.sameLanguage a.language b.language = true)
    (h : a.region = b.region) :
    a.isBetter b request = (preferDetails request a b == some true) := by
  have hcompare : RegionTree.compareFor a.region b.region request.language request.script
      request.region = .eq := by
    rw [RegionTree.compareFor, if_pos h]
  have ha' : (a.code != 0) = true := by simpa using ha
  have hb' : (b.code != 0) = true := by simpa using hb
  -- three properties in turn, whatever they are
  have hflags : ∀ v v' n n' l l' : Bool,
      (if v != v' then v else if n != n' then n else l && !l') =
        (((Preference.having v v').or ((Preference.having n n').or (Preference.having l l')))
          == some true) := by decide
  rw [isBetter, if_neg hrequest, if_neg (fun hcodes => ha hcodes.1), hlanguage, hcompare]
  unfold preferDetails hasVariantOf hasNumberingOf
  rw [ha', hb']
  exact hflags ..

/-- Between different regions with one language, of which one at least is set, the tree of
regions decides. -/
theorem isBetter_of_region_ne (hrequest : request.code ≠ 0)
    (hcodes : ¬ (a.code = 0 ∧ b.code = 0))
    (hlanguage : Subtag.sameLanguage a.language b.language = true)
    (ha : a.WellFormed) (hb : b.WellFormed) (h : a.region ≠ b.region) :
    a.isBetter b request = (preferAmongSame request a b == some true) := by
  have hne : RegionTree.prefer request.language request.script request.region a.region
      b.region ≠ none := fun hnone =>
    h ((RegionTree.prefer_eq_none_iff ha.region hb.region).mp hnone)
  rw [preferAmongSame_of_region_ne ha hb h, isBetter, if_neg hrequest, if_neg hcodes, hlanguage]
  unfold RegionTree.prefer at hne ⊢
  cases hcompare : RegionTree.compareFor a.region b.region request.language request.script
    request.region with
  | gt => rfl
  | lt => rfl
  | eq => simp [hcompare] at hne

theorem preferAmongSame_of_codes (ha : a.code = 0) (hb : b.code = 0) :
    preferAmongSame request a b = none := by
  obtain ⟨halanguage, haregion⟩ := code_eq_zero_iff.mp ha
  obtain ⟨hblanguage, hbregion⟩ := code_eq_zero_iff.mp hb
  have hwf : a.WellFormed := ⟨Or.inl halanguage, Or.inl haregion⟩
  rw [preferAmongSame_of_region_eq hwf (haregion.trans hbregion.symm)]
  simp [preferDetails, hasVariantOf, hasNumberingOf, ha, hb, halanguage, hblanguage,
    Preference.having]

/-- Where both locales have a language, or none has one, `isBetter` looks at the region
first, then at the variant, the numbering system and the exact language. -/
theorem Contends.isBetter_eq (hrequest : request.code ≠ 0) (ha : Contends request a)
    (hb : Contends request b) (hset : a.language.isSet = b.language.isSet) :
    a.isBetter b request = (preferAmongSame request a b == some true) := by
  have hlanguage := ha.sameLanguage_both hb hset
  by_cases hcodes : a.code = 0 ∧ b.code = 0
  · rw [preferAmongSame_of_codes hcodes.1 hcodes.2, isBetter, if_neg hrequest, if_pos hcodes]
    rfl
  · by_cases hregion : a.region = b.region
    · -- two locales with one region name something, or none of them does
      have hcode : a.code = 0 ↔ b.code = 0 := by
        rw [code_eq_zero_iff, code_eq_zero_iff, ← hregion]
        refine and_congr_left fun _ => ?_
        constructor
        · intro h
          rw [h] at hset
          exact hb.language_eq_none hset.symm
        · intro h
          rw [h] at hset
          exact ha.language_eq_none hset
      rw [preferAmongSame_of_region_eq ha.wellFormed hregion]
      exact isBetter_of_region_eq hrequest (fun h => hcodes ⟨h, hcode.mp h⟩)
        (fun h => hcodes ⟨hcode.mpr h, h⟩) hlanguage hregion
    · exact isBetter_of_region_ne hrequest hcodes hlanguage ha.wellFormed hb.wellFormed hregion

theorem prefer_eq_amongSame (hrequest : request.code ≠ 0) (ha : Contends request a)
    (hb : Contends request b) (hset : a.language.isSet = b.language.isSet) :
    prefer request a b = preferAmongSame request a b := by
  rw [prefer, ha.isBetter_eq hrequest hb hset, hb.isBetter_eq hrequest ha hset.symm,
    ranks_preferAmongSame.swap a b ha.wellFormed hb.wellFormed]
  rcases preferAmongSame request a b with _ | _ | _ <;> rfl

/-! ## Locales of different kinds -/

/-- Whether locales with a language and this region come before those without language. -/
def favours (request : Locale) (region : Subtag) : Bool :=
  if request.language = .english ∧ request.region = .unitedStates then
    !region.isSet || region == .unitedStates
  else if request.language = .english ∧ RegionTree.followsAmericanEnglish request.region then
    RegionTree.followsAmericanEnglish region
  else true

/-- A locale with a language against one without. -/
theorem isBetter_of_language (hrequest : request.code ≠ 0) (hset : a.language.isSet = true)
    (hb : b.language = .none) :
    a.isBetter b request = favours request a.region ∧
      b.isBetter a request = !favours request a.region := by
  have hcode := code_ne_zero hset
  constructor
  · rw [isBetter, if_neg hrequest, if_neg (fun h => hcode h.1), hb, (sameLanguage_none hset).1,
      hset]
    rfl
  · rw [isBetter, if_neg hrequest, if_neg (fun h => hcode h.2), hb, (sameLanguage_none hset).2,
      if_pos (show (!false) = true from rfl)]
    unfold favours
    split
    · rfl
    · split <;> rfl

/-- The preference for a locale with a language over one without. -/
theorem prefer_of_language (hrequest : request.code ≠ 0) (hset : a.language.isSet = true)
    (hb : b.language = .none) :
    prefer request a b = some (favours request a.region) ∧
      prefer request b a = some (!favours request a.region) := by
  obtain ⟨hab, hba⟩ := isBetter_of_language hrequest hset hb
  rw [prefer, prefer, hab, hba]
  cases favours request a.region <;> exact ⟨rfl, rfl⟩

theorem prefer_of_request (hrequest : request.code = 0) : prefer request a b = none := by
  rw [prefer, isBetter, isBetter, if_pos hrequest, if_pos hrequest]
  rfl

theorem code_ne_zero_of_prefer {first : Bool} (h : prefer request a b = some first) :
    request.code ≠ 0 := by
  intro hzero
  rw [prefer_of_request hzero] at h
  cases h

theorem prefer_swap (ha : Contends request a) (hb : Contends request b) :
    prefer request b a = (prefer request a b).map not := by
  by_cases hrequest : request.code = 0
  · rw [prefer_of_request hrequest, prefer_of_request hrequest]
    rfl
  · cases hasset : a.language.isSet <;> cases hbset : b.language.isSet
    case false.true =>
      obtain ⟨hba, hab⟩ := prefer_of_language hrequest hbset (ha.language_eq_none hasset)
      rw [hab, hba]
      simp
    case true.false =>
      obtain ⟨hab, hba⟩ := prefer_of_language hrequest hasset (hb.language_eq_none hbset)
      rw [hab, hba]
      rfl
    all_goals
      have hset := hasset.trans hbset.symm
      rw [prefer_eq_amongSame hrequest ha hb hset, prefer_eq_amongSame hrequest hb ha hset.symm]
      exact ranks_preferAmongSame.swap a b ha.wellFormed hb.wellFormed

/-- Locales that are alike are of one kind, unless the request prefers nothing. -/
theorem kind_eq_of_prefer (hrequest : request.code ≠ 0) (ha : Contends request a)
    (hb : Contends request b) (h : prefer request a b = none) :
    a.language.isSet = b.language.isSet := by
  cases hasset : a.language.isSet <;> cases hbset : b.language.isSet
  case false.true =>
    rw [(prefer_of_language hrequest hbset (ha.language_eq_none hasset)).2] at h
    cases h
  case true.false =>
    rw [(prefer_of_language hrequest hasset (hb.language_eq_none hbset)).1] at h
    cases h
  all_goals rfl

theorem prefer_tie (ha : Contends request a) (hb : Contends request b) (hc : Contends request c)
    (h : prefer request a b = none) : prefer request a c = prefer request b c := by
  by_cases hrequest : request.code = 0
  · rw [prefer_of_request hrequest, prefer_of_request hrequest]
  · have hset := kind_eq_of_prefer hrequest ha hb h
    rw [prefer_eq_amongSame hrequest ha hb hset] at h
    have hregion := region_eq_of_preferAmongSame ha.wellFormed hb.wellFormed h
    -- among its own kind `c` is compared by the order, and with the other by the region
    by_cases hc' : a.language.isSet = c.language.isSet
    · rw [prefer_eq_amongSame hrequest ha hc hc',
        prefer_eq_amongSame hrequest hb hc (hset.symm.trans hc')]
      exact ranks_preferAmongSame.tie a b c ha.wellFormed hb.wellFormed hc.wellFormed h
    · cases hasset : a.language.isSet with
      | true =>
          have hcnone := hc.language_eq_none (by simpa [hasset] using Ne.symm hc')
          rw [(prefer_of_language hrequest hasset hcnone).1,
            (prefer_of_language hrequest (hset ▸ hasset) hcnone).1, hregion]
      | false =>
          have hcset : c.language.isSet = true := by simpa [hasset] using Ne.symm hc'
          rw [(prefer_of_language hrequest hcset (ha.language_eq_none hasset)).2,
            (prefer_of_language hrequest hcset (hb.language_eq_none (hset ▸ hasset))).2]

/-- The preference between the locales that fit a request is coherent. -/
theorem coherent_prefer : Coherent (Contends request) (prefer request) where
  swap _ _ := prefer_swap
  tie _ _ _ := prefer_tie

/-! ## Circles -/

/-- In American English the favoured locales are the first ones. -/
theorem prefer_of_favours (henglish : request.language = .english)
    (hus : request.region = .unitedStates) (ha : Contends request a) (hb : Contends request b)
    (hset : a.language.isSet = b.language.isSet) (hfa : favours request a.region = true)
    (hfb : favours request b.region = false) : prefer request a b = some true := by
  have hrequest : request.code ≠ 0 := code_ne_zero (henglish ▸ rfl)
  rw [favours, if_pos ⟨henglish, hus⟩] at hfa hfb
  have hnear : a.region = .none ∨ a.region = .unitedStates := by
    rw [Bool.or_eq_true, Bool.not_eq_true', beq_iff_eq] at hfa
    exact hfa.imp_left ha.wellFormed.region.eq_none
  have hfar : ¬ (b.region = .none ∨ b.region = .unitedStates) := by
    rintro (h | h) <;> rw [h] at hfb <;> cases hfb
  have hne : a.region ≠ b.region := fun h => hfar (h ▸ hnear)
  rw [prefer_eq_amongSame hrequest ha hb hset,
    preferAmongSame_of_region_ne ha.wellFormed hb.wellFormed hne, henglish, hus]
  exact RegionTree.american_first ha.wellFormed.region hb.wellFormed.region hnear hfar

/-- A circle through one locale without language is a split. -/
theorem americanSplit_of_circular (ha : Contends request a) (hb : Contends request b)
    (hc : Contends request c) (haset : a.language.isSet = true)
    (hbset : b.language.isSet = false) (hcset : c.language.isSet = true)
    (h : Circular (prefer request) a b c) : AmericanSplit request a b c := by
  obtain ⟨hab, hbc, hca⟩ := h
  have hrequest := code_ne_zero_of_prefer hab
  have hbnone := hb.language_eq_none hbset
  have hfa : favours request a.region = true := by
    rw [(prefer_of_language hrequest haset hbnone).1] at hab
    exact Option.some.inj hab
  have hfc : favours request c.region = false := by
    rw [(prefer_of_language hrequest hcset hbnone).2, Option.some.injEq] at hbc
    simpa using hbc
  have hset := haset.trans hcset.symm
  by_cases hus : request.language = .english ∧ request.region = .unitedStates
  · -- there the order of regions agrees with the list
    have hac := prefer_of_favours hus.1 hus.2 ha hc hset hfa hfc
    rw [prefer_swap hc ha, hca] at hac
    cases hac
  · have hne : c.region ≠ a.region := fun h => by simp [h, hfa] at hfc
    rw [favours, if_neg hus] at hfa hfc
    split at hfc
    · rename_i hfollows
      rw [if_pos hfollows] at hfa
      rw [prefer_eq_amongSame hrequest hc ha hset.symm,
        preferAmongSame_of_region_ne hc.wellFormed ha.wellFormed hne, RegionTree.prefer,
        ofOrdering_eq_true] at hca
      exact {
        english := hfollows.1
        elsewhere := fun h => hus ⟨hfollows.1, h⟩
        american := hfollows.2
        near_language := haset
        near_region := hfa
        bare_language := hbset
        far_language := hcset
        far_region := hfc
        far_first := hca }
    · cases hfc

theorem AmericanSplit.circular (h : AmericanSplit request a b c) (ha : Contends request a)
    (hb : Contends request b) (hc : Contends request c) : Circular (prefer request) a b c := by
  have hrequest : request.code ≠ 0 := code_ne_zero (h.english ▸ rfl)
  have hfavours : ∀ region, favours request region = RegionTree.followsAmericanEnglish region :=
    fun region => by
      rw [favours, if_neg (fun hus => h.elsewhere hus.2), if_pos ⟨h.english, h.american⟩]
  have hbnone := hb.language_eq_none h.bare_language
  have hne : c.region ≠ a.region := fun heq => by
    have hfar := h.far_region
    rw [heq, h.near_region] at hfar
    cases hfar
  refine ⟨?_, ?_, ?_⟩
  · rw [(prefer_of_language hrequest h.near_language hbnone).1, hfavours, h.near_region]
  · rw [(prefer_of_language hrequest h.far_language hbnone).2, hfavours, h.far_region]
    rfl
  · rw [prefer_eq_amongSame hrequest hc ha (h.far_language.trans h.near_language.symm),
      preferAmongSame_of_region_ne hc.wellFormed ha.wellFormed hne, RegionTree.prefer,
      h.far_first]
    rfl

/-- A circle among locales of one kind does not exist. -/
theorem not_circular_of_kind (ha : Contends request a) (hb : Contends request b)
    (hc : Contends request c) (hab : a.language.isSet = b.language.isSet)
    (hbc : b.language.isSet = c.language.isSet) : ¬ Circular (prefer request) a b c := by
  intro h
  have hrequest := code_ne_zero_of_prefer h.1
  rw [Circular, prefer_eq_amongSame hrequest ha hb hab, prefer_eq_amongSame hrequest hb hc hbc,
    prefer_eq_amongSame hrequest hc ha (hab.trans hbc).symm] at h
  exact ranks_preferAmongSame.acyclic a b c ha.wellFormed hb.wellFormed hc.wellFormed h

/-- A circle has not two locales without language next to one with a language. -/
theorem not_circular_of_two_bare (hb : Contends request b)
    (hc : Contends request c) (haset : a.language.isSet = true)
    (hbset : b.language.isSet = false) (hcset : c.language.isSet = false) :
    ¬ Circular (prefer request) a b c := by
  rintro ⟨hab, _, hca⟩
  have hrequest := code_ne_zero_of_prefer hab
  rw [(prefer_of_language hrequest haset (hb.language_eq_none hbset)).1,
    Option.some.injEq] at hab
  rw [(prefer_of_language hrequest haset (hc.language_eq_none hcset)).2, hab] at hca
  cases hca

/-- The circles among the locales that fit a request are the splits. -/
theorem circular_prefer_iff (ha : Contends request a) (hb : Contends request b)
    (hc : Contends request c) :
    Circular (prefer request) a b c ↔
      AmericanSplit request a b c ∨ AmericanSplit request b c a ∨ AmericanSplit request c a b := by
  constructor
  · intro h
    -- the one locale without language is turned into the second one
    cases haset : a.language.isSet <;> cases hbset : b.language.isSet <;>
      cases hcset : c.language.isSet
    case true.false.true => exact Or.inl (americanSplit_of_circular ha hb hc haset hbset hcset h)
    case true.true.false =>
      exact Or.inr (Or.inl (americanSplit_of_circular hb hc ha hbset hcset haset h.rotate))
    case false.true.true =>
      exact Or.inr (Or.inr
        (americanSplit_of_circular hc ha hb hcset haset hbset h.rotate.rotate))
    case true.false.false => exact absurd h (not_circular_of_two_bare hb hc haset hbset hcset)
    case false.true.false =>
      exact absurd h.rotate (not_circular_of_two_bare hc ha hbset hcset haset)
    case false.false.true =>
      exact absurd h.rotate.rotate (not_circular_of_two_bare ha hb hcset haset hbset)
    all_goals
      exact absurd h
        (not_circular_of_kind ha hb hc (haset.trans hbset.symm) (hbset.trans hcset.symm))
  · rintro (h | h | h)
    · exact h.circular ha hb hc
    · exact (h.circular hb hc ha).rotate.rotate
    · exact (h.circular hc ha hb).rotate

end Locale

end AppResources
