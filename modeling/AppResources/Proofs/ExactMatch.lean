import AppResources.Proofs.ConfigRanking
import AppResources.Proofs.RegionAncestors

/-!
# The exact match

A variant for exactly the configuration of a device is not beaten by any other variant that
fits the device: on every axis the device's own value is the best one among the values that
fit. Sizes and versions that fit do not exceed the device's, fields that have to be equal are
at most unset, the requested region is the first one in the order of regions, and the
requested density needs no scaling. Only "any" density is better than the requested one.

## Main results

* `Locale.isBetter_request`: no locale that fits is better than the requested one.
* `preferEffective_wanted`: no density but "any" is better than the wanted one.
* `rankingAxes_exact`: no axis prefers a variant that fits to the exact match.
* `isBetter_exact`: neither does the ranking.
-/

namespace AppResources

/-! ## Axes -/

namespace Preference

theorem or_ne_true {p q : Preference} (hp : p ≠ some true) (hq : q ≠ some true) :
    p.or q ≠ some true := by
  cases p with
  | none => exact hq
  | some x => exact hp

theorem unless_ne_true {P : Prop} [Decidable P] {p : Preference} (h : ¬ P → p ≠ some true) :
    (if P then none else p) ≠ some true := by
  split
  · decide
  · next hP => exact h hP

theorem greater_ne_true {a b : Nat} (h : a ≤ b) : greater a b ≠ some true := by
  rw [greater, decide_eq_false (Nat.not_lt.mpr h)]
  exact unless_ne_true fun _ => by decide

theorem smaller_ne_true {a b : Int} (h : b ≤ a) : smaller a b ≠ some true := by
  rw [smaller, decide_eq_false (Int.not_lt.mpr h)]
  exact unless_ne_true fun _ => by decide

theorem having_ne_true {x y : Bool} (h : x = true → y = true) : having x y ≠ some true := by
  cases x with
  | false => exact unless_ne_true fun _ => by decide
  | true =>
      rw [h rfl]
      decide

/-- A field that is unset or has the device's value is not preferred to that value. -/
theorem set_ne_true {β : Type} [BEq β] [LawfulBEq β] {unset actual x : β}
    (h : Config.allowsEqual unset x actual = true) : set unset actual x actual ≠ some true := by
  rw [set_eq_having h (by simp [Config.allowsEqual])]
  rw [Config.allowsEqual, Bool.or_eq_true, beq_iff_eq, beq_iff_eq] at h
  apply having_ne_true
  rcases h with rfl | rfl <;> simp

end Preference

/-! ## Locales -/

namespace Locale

variable {l request : Locale}

/-- A locale that fits and whose language is another one has none. -/
theorem isSet_language_of_fits (hfits : l.code = 0 ∨ l.fits request = true)
    (hlanguage : Subtag.sameLanguage l.language request.language = false) :
    l.language.isSet = false := by
  rcases hfits with hcode | hfits
  · rw [(code_eq_zero_iff.mp hcode).1]
    rfl
  · rw [fits, hlanguage, Bool.or_false, Bool.and_eq_true, Bool.not_eq_true'] at hfits
    exact hfits.1

/-- No locale that fits a request is better than the requested one. -/
theorem isBetter_request (hfits : l.code = 0 ∨ l.fits request = true)
    (hregion : l.region.WellFormed) (hrequest : request.region.WellFormed) :
    l.isBetter request request = false := by
  unfold isBetter
  split
  · rfl
  split
  · rfl
  split
  · next hlanguage =>
    -- resources without language are no better than those in the requested one
    have hnone := isSet_language_of_fits hfits (by simpa using hlanguage)
    rw [hnone]
    split
    · next hus => simp [hus.2]
    split
    · next hnear => simp [hnear.2]
    · rfl
  by_cases h : l.region = request.region
  · rw [h, RegionTree.compareFor, if_pos rfl]
    simp only [beq_self_eq_true, bne_self_eq_false, Bool.and_false]
    split
    · next hvariant => simpa using hvariant
    split
    · next hnumbering => simpa using hnumbering
    · rfl
  · rw [RegionTree.compareFor_request hregion hrequest h]

end Locale

namespace Config

open Preference

variable {device c : Config}

/-! ## Densities -/

/-- No density but "any" is better than the wanted one. -/
theorem preferEffective_wanted {wanted x : Nat} (hany : x ≠ anyDensity.toNat) :
    preferEffective wanted x wanted ≠ some true := by
  unfold preferEffective
  rw [beq_false_of_ne hany]
  refine or_ne_true (having_ne_true Bool.noConfusion) ?_
  rcases Nat.lt_trichotomy x wanted with h | rfl | h
  · have hbeats : ¬ beatsLarger wanted x wanted := by
      rintro (hle | ⟨hlt, _⟩) <;> omega
    rw [preferScaled_of_lt h, decide_eq_false hbeats]
    decide
  · rw [preferScaled_eq_none_iff.mpr rfl]
    decide
  · have hbeats : beatsLarger wanted wanted x := Or.inl (Nat.le_refl wanted)
    rw [preferScaled_of_gt h, decide_eq_true hbeats]
    decide

theorem preferDensity_exact (hany : c.density ≠ anyDensity)
    (hdensity : UnmixedDensity [c, device]) : preferDensity device c device ≠ some true := by
  obtain ⟨spare, hspare, hne⟩ := hdensity.spare
  rw [preferDensity_eq hspare (hne c (by simp)) (hne device (by simp))]
  have hmine := effectiveDensity_ne_any hany
  unfold requestedDensity
  split
  · -- a device with "any" density wants the medium one, but "any" is better than the variant
    next h =>
    have hlast : having false (effectiveDensity anyDensity == anyDensity.toNat) = some false := by
      decide
    rw [preferEffective, beq_false_of_ne hmine, h, hlast, Option.some_or]
    decide
  · exact preferEffective_wanted hmine

/-! ## Fields -/

theorem preferLayoutDirection_exact (h : allowsField .layoutDirection c device = true) :
    preferLayoutDirection device c device ≠ some true := by
  rw [allowsField, allowsEqual, Bool.or_eq_true, beq_iff_eq, beq_iff_eq] at h
  refine unless_ne_true fun _ => greater_ne_true ?_
  rcases h with h | h
  · rw [h]
    exact Nat.zero_le _
  · exact Nat.le_of_eq (congrArg UInt8.toNat h)

theorem preferSizeClass_exact
    (h : (ConfigField.sizeClass.get c).toNat ≤ (ConfigField.sizeClass.get device).toNat) :
    preferSizeClass device c device ≠ some true := by
  rw [preferSizeClass_eq]
  refine unless_ne_true fun hset => or_ne_true (greater_ne_true ?_) (having_ne_true ?_)
  · simp only [effectiveSizeClass]
    grind
  · exact fun _ => bne_iff_ne.mpr hset

theorem preferKeysHidden_exact : preferKeysHidden device c device ≠ some true := by
  rw [preferKeysHidden_eq]
  refine unless_ne_true fun hset => or_ne_true (having_ne_true ?_) (having_ne_true ?_)
  · exact fun _ => bne_iff_ne.mpr hset
  · exact fun _ => beq_self_eq_true _

theorem preferNavigationHidden_exact : preferNavigationHidden device c device ≠ some true := by
  rw [preferNavigationHidden_eq]
  exact unless_ne_true fun hset => having_ne_true fun _ => bne_iff_ne.mpr hset

/-- A screen that is no larger than the device's is no closer to the device's size. -/
theorem sizeGap_nonneg {width height deviceWidth deviceHeight : UInt16}
    (hwidth : width.toNat ≤ deviceWidth.toNat) (hheight : height.toNat ≤ deviceHeight.toNat) :
    sizeGap deviceWidth deviceHeight deviceWidth deviceHeight ≤
      sizeGap width height deviceWidth deviceHeight := by
  unfold sizeGap
  split <;> split <;> omega

/-! ## The ranking -/

/-- No axis prefers a variant that fits to the exact match. -/
theorem rankingAxes_exact (hfits : c.fits device = true)
    (hregion : c.locale.region.WellFormed) (hdevice : device.locale.region.WellFormed)
    (hany : c.density ≠ anyDensity) (hdensity : UnmixedDensity [c, device]) :
    ∀ axis ∈ rankingAxes, axis device c device ≠ some true := by
  have hfield : ∀ f : ConfigField, f ≠ .sizeClass → f ≠ .keysHidden →
      preferField f device c device ≠ some true := fun f hsize hkeys =>
    set_ne_true (allowsField_of_fits hfits hsize hkeys)
  obtain ⟨hmcc, hmnc, hminor⟩ := allowsSame_of_fits hfits
  obtain ⟨hsmallest, hwidthDp, hheightDp, hwidth, hheight, hversion⟩ := le_of_fits hfits
  have hlocale : preferLocale device c device ≠ some true := by
    rw [preferLocale, Locale.isBetter_request (locale_of_fits hfits) hregion hdevice,
      if_neg Bool.false_ne_true]
    split <;> decide
  unfold rankingAxes
  simp only [List.forall_mem_cons]
  exact ⟨set_ne_true hmcc, set_ne_true hmnc, hlocale,
    preferLayoutDirection_exact (allowsField_of_fits hfits (by decide) (by decide)),
    greater_ne_true hsmallest, smaller_ne_true (sizeGap_nonneg hwidthDp hheightDp),
    preferSizeClass_exact (sizeClass_le_of_fits hfits), hfield _ (by decide) (by decide),
    hfield _ (by decide) (by decide), hfield _ (by decide) (by decide),
    hfield _ (by decide) (by decide), hfield _ (by decide) (by decide),
    hfield _ (by decide) (by decide), hfield _ (by decide) (by decide),
    preferDensity_exact hany hdensity, hfield _ (by decide) (by decide), preferKeysHidden_exact,
    preferNavigationHidden_exact, hfield _ (by decide) (by decide),
    hfield _ (by decide) (by decide), smaller_ne_true (sizeGap_nonneg hwidth hheight),
    unless_ne_true fun _ => greater_ne_true hversion, set_ne_true hminor,
    fun _ h => absurd h List.not_mem_nil⟩

/-- A variant that fits a device is not better for it than one for exactly the device's
configuration. -/
theorem isBetter_exact (hfits : c.fits device = true) (hregion : c.locale.region.WellFormed)
    (hdevice : device.locale.region.WellFormed) (hany : c.density ≠ anyDensity)
    (hdensity : UnmixedDensity [c, device]) : isBetter c device device = false := by
  rw [Bool.eq_false_iff, ne_eq, isBetter_iff]
  intro h
  obtain ⟨axis, haxis, htrue⟩ := List.exists_of_findSome?_eq_some h
  exact rankingAxes_exact hfits hregion hdevice hany hdensity axis haxis htrue

/-- A phone in Puerto Rico that shows its keys on the screen. -/
def phone : Config :=
  { inEnglish puertoRico with density := 240, screenLayout := 2, inputFlags := 3 }

/-- A variant that was made for Guam, a higher density and exposed keys. -/
def forGuam : Config :=
  { inEnglish guam with density := 320, inputFlags := 1 }

theorem isBetter_exact_phone :
    forGuam.fits phone = true ∧ forGuam.locale.region.WellFormed ∧
      phone.locale.region.WellFormed ∧ forGuam.density ≠ anyDensity ∧
      UnmixedDensity [forGuam, phone] ∧ isBetter forGuam phone phone = false :=
  ⟨by decide, by decide, by decide, by decide, by decide,
    isBetter_exact (by decide) (by decide) (by decide) (by decide) (by decide)⟩

end Config

end AppResources
