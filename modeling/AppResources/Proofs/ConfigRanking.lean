import AppResources.Proofs.DensityOrder
import AppResources.Proofs.Fitting
import AppResources.Proofs.LocaleRanking

/-!
# The ranking of the variants that fit a device

Every axis of the ranking but the locale is an order on the variants that fit a device.
Most axes are so only there: a variant that fits sets a field to the device's value or not
at all, so that setting it is one property that a variant has or lacks. The density is an
order where no variant with an unset density meets one with the medium density, which
counts the same.

The locales are coherent but have circles. As the axes before the locale are orders too, a
circle of the ranking is one of the locales of variants for one network.

## Main results

* `ranks_axesAfterLocale`, `coherent_ranking`: the axes and their sequence.
* `circular_ranking_iff`: the circles of the ranking.
* `isBetter_asymm`: of two variants at most one is better.
* `isBetter_trans_iff`: when the ranking goes on from one variant to the next.
-/

namespace AppResources

/-! ## Axes for a field that is set -/

namespace Preference

variable {α β : Type} {S : α → Prop}

/-- Of two values that are unset or the device's own the one that is set is preferred. -/
theorem set_eq_having [BEq β] [LawfulBEq β] {unset actual x y : β}
    (hx : Config.allowsEqual unset x actual = true)
    (hy : Config.allowsEqual unset y actual = true) :
    Preference.set unset actual x y = having (x != unset) (y != unset) := by
  rw [Config.allowsEqual, Bool.or_eq_true, beq_iff_eq, beq_iff_eq] at hx hy
  unfold Preference.set having
  by_cases hactual : actual = unset
  · -- a device without the value leaves both unset
    obtain rfl : x = unset := hx.elim id (·.trans hactual)
    obtain rfl : y = x := hy.elim id (·.trans hactual)
    simp
  · rcases hx with rfl | rfl <;> rcases hy with rfl | rfl <;> simp_all [Ne.symm]

/-- Such values are alike only if they are equal. -/
theorem set_eq_none_iff [BEq β] [LawfulBEq β] {unset actual x y : β}
    (hx : Config.allowsEqual unset x actual = true)
    (hy : Config.allowsEqual unset y actual = true) :
    Preference.set unset actual x y = none ↔ x = y := by
  rw [Config.allowsEqual, Bool.or_eq_true, beq_iff_eq, beq_iff_eq] at hx hy
  unfold Preference.set
  by_cases hactual : actual = unset
  · obtain rfl : x = unset := hx.elim id (·.trans hactual)
    obtain rfl : y = x := hy.elim id (·.trans hactual)
    simp
  · simp [hactual]

theorem ranks_set [BEq β] [LawfulBEq β] {unset actual : β} {get : α → β}
    (h : ∀ a, S a → Config.allowsEqual unset (get a) actual = true) :
    Ranks S fun a b => Preference.set unset actual (get a) (get b) :=
  (ranks_having fun a => get a != unset).congr fun a b ha hb => set_eq_having (h a ha) (h b hb)

end Preference

namespace Config

open Preference

/-- A variant that may be chosen for a device: it fits, and its language and region are
each none or a code. -/
structure Contends (device c : Config) : Prop where
  /-- Its codes are well-formed. -/
  wellFormed : c.locale.WellFormed
  /-- It fits. -/
  fits : c.fits device = true

/-- No variant has an unset density while another one has the medium density. -/
def UnmixedDensity (cs : List Config) : Prop :=
  ¬ ((∃ c ∈ cs, c.density = 0) ∧ ∃ c ∈ cs, c.density = mediumDensity)

instance (cs : List Config) : Decidable (UnmixedDensity cs) := by
  unfold UnmixedDensity
  infer_instance

variable {S : Config → Prop} {device a b c : Config}

/-- One of the two densities does not occur. -/
theorem UnmixedDensity.spare {cs : List Config} (h : UnmixedDensity cs) :
    ∃ spare, (spare = 0 ∨ spare = mediumDensity) ∧ ∀ c ∈ cs, c.density ≠ spare := by
  by_cases hunset : ∃ c ∈ cs, c.density = 0
  · exact ⟨mediumDensity, Or.inr rfl, fun c hc heq => h ⟨hunset, c, hc, heq⟩⟩
  · exact ⟨0, Or.inl rfl, fun c hc heq => hunset ⟨c, hc, heq⟩⟩

theorem Contends.locale (h : Contends device c) : Locale.Contends device.locale c.locale where
  wellFormed := h.wellFormed
  fits := locale_of_fits h.fits

/-! ## The axes -/

/-- A part of a byte that has to be unset or equal is an order. -/
theorem ranks_preferField {f : ConfigField} (hS : ∀ c, S c → c.fits device = true)
    (hsize : f ≠ .sizeClass) (hkeys : f ≠ .keysHidden) : Ranks S (preferField f device) :=
  ranks_set fun c hc => allowsField_of_fits (hS c hc) hsize hkeys

theorem ranks_preferLayoutDirection : Ranks S (preferLayoutDirection device) :=
  ranks_unless _ (ranks_greater fun c => (ConfigField.layoutDirection.get c).toNat)

theorem ranks_preferVersion : Ranks S (preferVersion device) :=
  ranks_unless _ (ranks_greater fun c : Config => c.sdkVersion.toNat)

theorem ranks_preferSizeDp : Ranks S (preferSizeDp device) :=
  ranks_smaller fun c : Config => sizeGap c.widthDp c.heightDp device.widthDp device.heightDp

theorem ranks_preferSize : Ranks S (preferSize device) :=
  ranks_smaller fun c : Config =>
    sizeGap c.screenWidth c.screenHeight device.screenWidth device.screenHeight

/-- Different size classes that count the same are one that is set and one that is not. -/
theorem set_iff_of_effectiveSizeClass
    (h : ConfigField.sizeClass.get a ≠ ConfigField.sizeClass.get b)
    (heq : effectiveSizeClass device a = effectiveSizeClass device b) :
    ConfigField.sizeClass.get a ≠ 0 ↔ ConfigField.sizeClass.get b = 0 := by
  have hown : (ConfigField.sizeClass.get a).toNat ≠ (ConfigField.sizeClass.get b).toNat :=
    fun hnat => h (UInt8.toNat_inj.mp hnat)
  have hzero : ∀ s : UInt8, s.toNat = 0 ↔ s = 0 := fun s => UInt8.toNat_inj (b := 0)
  simp only [effectiveSizeClass] at heq
  grind

/-- Size classes are compared by the size that counts, and then by whether they are set. -/
theorem preferSizeClass_eq :
    preferSizeClass device a b =
      if ConfigField.sizeClass.get device = 0 then none
      else (greater (effectiveSizeClass device a) (effectiveSizeClass device b)).or
        (having (ConfigField.sizeClass.get a != 0) (ConfigField.sizeClass.get b != 0)) := by
  simp only [preferSizeClass, greater, having]
  by_cases h : ConfigField.sizeClass.get a = ConfigField.sizeClass.get b
  · simp [h, effectiveSizeClass]
  · by_cases heq : effectiveSizeClass device a = effectiveSizeClass device b
    · grind [set_iff_of_effectiveSizeClass h heq]
    · simp [h, heq]

theorem ranks_preferSizeClass : Ranks S (preferSizeClass device) :=
  (ranks_unless _ ((ranks_greater (effectiveSizeClass device)).or
    (ranks_having fun c => ConfigField.sizeClass.get c != 0))).congr
      fun _ _ _ _ => preferSizeClass_eq

/-- Hidden keys are compared by whether they are set, and then by whether they are exactly
the device's. -/
theorem preferKeysHidden_eq :
    preferKeysHidden device a b =
      if ConfigField.keysHidden.get device = 0 then none
      else (having (ConfigField.keysHidden.get a != 0) (ConfigField.keysHidden.get b != 0)).or
        (having (ConfigField.keysHidden.get a == ConfigField.keysHidden.get device)
          (ConfigField.keysHidden.get b == ConfigField.keysHidden.get device)) := by
  simp only [preferKeysHidden, having]
  grind

theorem ranks_preferKeysHidden : Ranks S (preferKeysHidden device) :=
  (ranks_unless _ ((ranks_having fun c => ConfigField.keysHidden.get c != 0).or
    (ranks_having fun c =>
      ConfigField.keysHidden.get c == ConfigField.keysHidden.get device))).congr
        fun _ _ _ _ => preferKeysHidden_eq

/-- Hidden navigation is compared by whether it is set. -/
theorem preferNavigationHidden_eq :
    preferNavigationHidden device a b =
      if ConfigField.navigationHidden.get device = 0 then none
      else having (ConfigField.navigationHidden.get a != 0)
        (ConfigField.navigationHidden.get b != 0) := by
  simp only [preferNavigationHidden, having]
  grind

theorem ranks_preferNavigationHidden : Ranks S (preferNavigationHidden device) :=
  (ranks_unless _ (ranks_having fun c => ConfigField.navigationHidden.get c != 0)).congr
    fun _ _ _ _ => preferNavigationHidden_eq

/-! ## The sequence of the axes -/

/-- The axes behind the locale. -/
def axesAfterLocale : List (Config → Config → Config → Preference) := rankingAxes.drop 3

/-- The variants that compete for a device when one of the densities "unset" and "medium"
does not occur. -/
def Competes (device : Config) (spare : UInt16) (c : Config) : Prop :=
  Contends device c ∧ c.density ≠ spare

/-- The axes behind the locale are orders. -/
theorem ranks_axesAfterLocale {spare : UInt16} (hspare : spare = 0 ∨ spare = mediumDensity) :
    ∀ axis ∈ axesAfterLocale, Ranks (Competes device spare) (axis device) := by
  have hS : ∀ c, Competes device spare c → c.fits device = true := fun _ hc => hc.1.fits
  unfold axesAfterLocale rankingAxes
  simp only [List.drop_succ_cons, List.drop_zero, List.forall_mem_cons]
  exact ⟨ranks_preferLayoutDirection, ranks_greater fun c : Config => c.smallestWidthDp.toNat,
    ranks_preferSizeDp, ranks_preferSizeClass, ranks_preferField hS (by decide) (by decide),
    ranks_preferField hS (by decide) (by decide), ranks_preferField hS (by decide) (by decide),
    ranks_preferField hS (by decide) (by decide), ranks_preferField hS (by decide) (by decide),
    ranks_preferField hS (by decide) (by decide), ranks_preferField hS (by decide) (by decide),
    ranks_preferDensity device hspare fun _ hc => hc.2,
    ranks_preferField hS (by decide) (by decide), ranks_preferKeysHidden,
    ranks_preferNavigationHidden, ranks_preferField hS (by decide) (by decide),
    ranks_preferField hS (by decide) (by decide), ranks_preferSize, ranks_preferVersion,
    ranks_set fun c hc => (allowsSame_of_fits (hS c hc)).2.2,
    fun _ h => absurd h List.not_mem_nil⟩

theorem rankingAxes_eq :
    rankingAxes =
      (fun device a b => Preference.set 0 device.mcc a.mcc b.mcc) ::
        (fun device a b => Preference.set 0 device.mnc a.mnc b.mnc) ::
          preferLocale :: axesAfterLocale :=
  rfl

section Ranking

variable {spare : UInt16}

theorem ranks_mcc : Ranks (Competes device spare)
    fun a b => Preference.set 0 device.mcc a.mcc b.mcc :=
  ranks_set fun _ hc => (allowsSame_of_fits hc.1.fits).1

theorem ranks_mnc : Ranks (Competes device spare)
    fun a b => Preference.set 0 device.mnc a.mnc b.mnc :=
  ranks_set fun _ hc => (allowsSame_of_fits hc.1.fits).2.1

theorem coherent_preferLocale : Coherent (Competes device spare) (preferLocale device) :=
  Locale.coherent_prefer.comap Config.locale fun _ hc => hc.1.locale

/-- The ranking is coherent. -/
theorem coherent_ranking (hspare : spare = 0 ∨ spare = mediumDensity) :
    Coherent (Competes device spare) (firstPreference rankingAxes device) := by
  rw [rankingAxes_eq]
  refine firstPreference_coherent ?_
  simp only [List.forall_mem_cons]
  exact ⟨ranks_mcc.toCoherent, ranks_mnc.toCoherent, coherent_preferLocale,
    fun axis haxis => (ranks_axesAfterLocale hspare axis haxis).toCoherent⟩

/-- Variants for one network. -/
def SameNetwork (a b : Config) : Prop := a.mcc = b.mcc ∧ a.mnc = b.mnc

/-- A circle of the ranking is one of the locales, for variants that the network does not
tell apart. -/
theorem circular_ranking_iff (hspare : spare = 0 ∨ spare = mediumDensity)
    (ha : Competes device spare a) (hb : Competes device spare b) (hc : Competes device spare c) :
    Circular (firstPreference rankingAxes device) a b c ↔
      SameNetwork a b ∧ SameNetwork b c ∧
        Circular (Locale.prefer device.locale) a.locale b.locale c.locale := by
  have hmcc := fun {x} (hx : Competes device spare x) => (allowsSame_of_fits hx.1.fits).1
  have hmnc := fun {x} (hx : Competes device spare x) => (allowsSame_of_fits hx.1.fits).2.1
  have hafter := (firstPreference_ranks (ranks_axesAfterLocale hspare)).acyclic a b c ha hb hc
  rw [rankingAxes_eq, firstPreference_circular_cons_iff ranks_mcc.toCoherent ha hb hc,
    firstPreference_circular_cons_iff ranks_mnc.toCoherent ha hb hc,
    firstPreference_circular_cons_iff coherent_preferLocale ha hb hc,
    set_eq_none_iff (hmcc ha) (hmcc hb), set_eq_none_iff (hmcc hb) (hmcc hc),
    set_eq_none_iff (hmnc ha) (hmnc hb), set_eq_none_iff (hmnc hb) (hmnc hc)]
  have hlocale : Circular (preferLocale device) a b c ↔
      Circular (Locale.prefer device.locale) a.locale b.locale c.locale := Iff.rfl
  have hno_mcc := ranks_mcc.acyclic a b c ha hb hc
  have hno_mnc := ranks_mnc.acyclic a b c ha hb hc
  unfold SameNetwork
  rw [hlocale]
  grind

end Ranking

/-! ## Laws of the ranking -/

theorem isBetter_iff : isBetter a b device = true ↔
    firstPreference rankingAxes device a b = some true := by
  unfold isBetter
  cases firstPreference rankingAxes device a b <;> simp

/-- English in a region, as a device asks for it. -/
def inEnglish (region : Subtag) : Config where
  locale := {
    language := .english
    region := region
    script := Script.ofCode "Latn"
    scriptComputed := true }

/-- Puerto Rico, whose English follows the American one. -/
def puertoRico : Subtag := ⟨0x50, 0x52⟩

/-- Guam, whose English follows the American one. -/
def guam : Subtag := ⟨0x47, 0x55⟩

/-- China, whose English does not. -/
def china : Subtag := ⟨0x43, 0x4e⟩

theorem contends_default : Contends device default :=
  ⟨⟨Or.inl rfl, Or.inl rfl⟩, fits_of_locale {} device⟩

/-- Of two variants that fit a device at most one is better, if their densities are not one
unset and the other one medium. -/
theorem isBetter_asymm (ha : Contends device a) (hb : Contends device b)
    (hdensity : UnmixedDensity [a, b]) :
    ¬ (isBetter a b device = true ∧ isBetter b a device = true) := by
  obtain ⟨spare, hspare, hne⟩ := hdensity.spare
  have ha' : Competes device spare a := ⟨ha, hne a (by simp)⟩
  have hb' : Competes device spare b := ⟨hb, hne b (by simp)⟩
  rw [isBetter_iff, isBetter_iff]
  rintro ⟨hab, hba⟩
  rw [(coherent_ranking hspare).asymm ha' hb' hab] at hba
  cases hba

theorem isBetter_asymm_guam :
    ¬ (isBetter (inEnglish guam) default (inEnglish puertoRico) = true ∧
      isBetter default (inEnglish guam) (inEnglish puertoRico) = true) :=
  isBetter_asymm ⟨⟨by decide, by decide⟩, by decide⟩ contends_default (by decide)

/-- Three variants that only the locale tells apart and whose locales form a circle. -/
def TornByLocale (device a b c : Config) : Prop :=
  SameNetwork a b ∧ SameNetwork b c ∧
    (Locale.AmericanSplit device.locale a.locale b.locale c.locale ∨
      Locale.AmericanSplit device.locale b.locale c.locale a.locale ∨
      Locale.AmericanSplit device.locale c.locale a.locale b.locale)

/-- Along three variants the ranking goes on, unless they are torn by their locales. -/
theorem isBetter_trans_iff (ha : Contends device a) (hb : Contends device b)
    (hc : Contends device c) (hdensity : UnmixedDensity [a, b, c]) :
    (isBetter a b device = true → isBetter b c device = true → isBetter a c device = true) ↔
      ¬ TornByLocale device a b c := by
  obtain ⟨spare, hspare, hne⟩ := hdensity.spare
  have ha' : Competes device spare a := ⟨ha, hne a (by simp)⟩
  have hb' : Competes device spare b := ⟨hb, hne b (by simp)⟩
  have hc' : Competes device spare c := ⟨hc, hne c (by simp)⟩
  rw [isBetter_iff, isBetter_iff, isBetter_iff,
    trans_iff_not_circular (coherent_ranking hspare) ha' hb' hc',
    circular_ranking_iff hspare ha' hb' hc',
    Locale.circular_prefer_iff ha.locale hb.locale hc.locale]
  rfl

/-- For Puerto Rico Guam is better than no language, no language better than China, and
China better than Guam, as its packed code is the lower one. -/
theorem torn_puertoRico :
    TornByLocale (inEnglish puertoRico) (inEnglish guam) default (inEnglish china) :=
  ⟨⟨rfl, rfl⟩, ⟨rfl, rfl⟩, Or.inl {
    english := rfl
    elsewhere := by decide
    american := by decide
    near_language := rfl
    near_region := by decide
    bare_language := rfl
    far_language := rfl
    far_region := by decide
    far_first := by decide }⟩

theorem not_trans_puertoRico :
    ¬ (isBetter (inEnglish guam) default (inEnglish puertoRico) = true →
      isBetter default (inEnglish china) (inEnglish puertoRico) = true →
      isBetter (inEnglish guam) (inEnglish china) (inEnglish puertoRico) = true) :=
  fun h => (isBetter_trans_iff ⟨⟨by decide, by decide⟩, by decide⟩ contends_default
    ⟨⟨by decide, by decide⟩, by decide⟩ (by decide)).mp h torn_puertoRico

/-- The ranking is not transitive. -/
theorem isBetter_not_transitive :
    ¬ ∀ device a b c : Config, device.locale.WellFormed → Contends device a →
      Contends device b → Contends device c → UnmixedDensity [a, b, c] →
      isBetter a b device = true → isBetter b c device = true → isBetter a c device = true := by
  intro h
  have hac := h (inEnglish puertoRico) (inEnglish guam) default (inEnglish china)
    ⟨by decide, by decide⟩ ⟨⟨by decide, by decide⟩, by decide⟩ contends_default
    ⟨⟨by decide, by decide⟩, by decide⟩ (by decide) (by decide) (by decide)
  revert hac
  decide

end Config

end AppResources
