import AppResources.Proofs.ExactMatch
import AppResources.Proofs.Indifference

/-!
# The ranking of densities

Every density can be used on every device, so a request puts all of them in order. Among
densities that count differently the order is total: "any" comes first, then the density that is
asked for, and then the others by how much they have to be scaled. Variants that differ in their
densities alone are ranked by that order, as all axes in front of it are silent about them.

## Main results

* `densityIsBetter_swap`, `densityIsBetter_trans`: one of two densities is better, and what is
  better than a better one is better.
* `requested_densityIsBetter`: the density that is asked for is beaten by "any" only.
* `isBetter_of_density`: variants that differ in their densities alone.
* `ordersDensities`: what is said of a request altogether.
-/

namespace AppResources

namespace Preference

theorem set_self {α : Type} [BEq α] [LawfulBEq α] (unset actual x : α) :
    set unset actual x x = none := by
  simp [set]

end Preference

namespace Locale

/-- No locale is better than itself. -/
theorem isBetter_self (l request : Locale) : l.isBetter l request = false := by
  have hsame : Subtag.sameLanguage l.language l.language = true := by
    rw [sameLanguage_iff]
    exact Or.inl rfl
  unfold isBetter
  rw [hsame, RegionTree.compareFor, if_pos rfl]
  simp

end Locale

namespace Config

open Preference

variable {a b c request : UInt16} {device config : Config}

/-! ## Two densities -/

theorem densityIsBetter_iff (h : effectiveDensity a ≠ effectiveDensity b) :
    densityIsBetter a b request = true ↔
      preferEffective (requestedDensity request) (effectiveDensity a) (effectiveDensity b) =
        some true := by
  rw [← densityIsBetter_eq h, Option.some_inj]

/-- Exactly one of two densities is better. -/
theorem densityIsBetter_swap (h : effectiveDensity a ≠ effectiveDensity b) :
    densityIsBetter b a request = !densityIsBetter a b request := by
  have hranks : Ranks (fun _ => True) (preferEffective (requestedDensity request)) :=
    ranks_preferEffective
  have hswap := hranks.swap (effectiveDensity a) (effectiveDensity b) trivial trivial
  rw [← densityIsBetter_eq h, ← densityIsBetter_eq h.symm] at hswap
  exact Option.some.inj hswap

theorem densityIsBetter_trans (hab : effectiveDensity a ≠ effectiveDensity b)
    (hbc : effectiveDensity b ≠ effectiveDensity c)
    (hac : effectiveDensity a ≠ effectiveDensity c)
    (h : densityIsBetter a b request = true) (h' : densityIsBetter b c request = true) :
    densityIsBetter a c request = true := by
  rw [densityIsBetter_iff hab] at h
  rw [densityIsBetter_iff hbc] at h'
  rw [densityIsBetter_iff hac]
  exact ranks_preferEffective.trans trivial trivial trivial h h'

theorem any_densityIsBetter (b request : UInt16) : densityIsBetter anyDensity b request = true := by
  unfold densityIsBetter
  exact if_pos rfl

/-- The density that is asked for is beaten by "any" only. -/
theorem requested_densityIsBetter (ha : effectiveDensity a = requestedDensity request)
    (hb : effectiveDensity b ≠ requestedDensity request) (hany : b ≠ anyDensity) :
    densityIsBetter a b request = true := by
  have hba : effectiveDensity b ≠ effectiveDensity a := ha ▸ hb
  rw [densityIsBetter_swap hba, Bool.not_eq_true', Bool.eq_false_iff, ne_eq,
    densityIsBetter_iff hba, ha]
  exact preferEffective_wanted (effectiveDensity_ne_any hany)

/-! ## Two variants -/

/-- The axes in front of the density. -/
def axesBeforeDensity : List (Config → Config → Config → Preference) := rankingAxes.take 14

theorem rankingAxes_eq_density :
    rankingAxes = axesBeforeDensity ++ preferDensity :: rankingAxes.drop 15 := rfl

/-- They are silent about variants that differ in their densities alone. -/
theorem axesBeforeDensity_silent (device config : Config) (a b : UInt16) :
    ∀ axis ∈ axesBeforeDensity,
      axis device { config with density := a } { config with density := b } = none := by
  have hlocale : preferLocale device config config = none := by
    rw [preferLocale, Locale.isBetter_self, if_neg Bool.false_ne_true, if_neg Bool.false_ne_true]
  have hdirection : preferLayoutDirection device config config = none := by
    simp [preferLayoutDirection, greater]
  unfold axesBeforeDensity rankingAxes
  simp only [List.take_succ_cons, List.take_zero, List.forall_mem_cons]
  -- no other field differs, so each axis compares something with itself
  exact ⟨set_self _ _ _, set_self _ _ _, hlocale, hdirection, if_pos rfl, smaller_self _,
    if_pos (Or.inl rfl), set_self _ _ _, set_self _ _ _, set_self _ _ _, set_self _ _ _,
    set_self _ _ _, set_self _ _ _, set_self _ _ _, fun _ h => absurd h List.not_mem_nil⟩

/-- Variants that differ in their densities alone are ranked by these. -/
theorem isBetter_of_density (h : effectiveDensity a ≠ effectiveDensity b) :
    isBetter { config with density := a } { config with density := b } device =
      densityIsBetter a b device.density := by
  have hne : ¬ a = b := fun hab => h (congrArg effectiveDensity hab)
  have hdensity : preferDensity device { config with density := a } { config with density := b } =
      some (densityIsBetter a b device.density) := if_neg hne
  have hbefore := List.findSome?_eq_none_iff.mpr (axesBeforeDensity_silent device config a b)
  rw [isBetter, firstPreference, rankingAxes_eq_density, List.findSome?_append, hbefore,
    Option.none_or, List.findSome?_cons, hdensity]
  rfl

/-! ## All densities -/

/-- What is said of the order of densities for a request. -/
structure OrdersDensities (request : UInt16) : Prop where
  /-- Exactly one of two densities that count differently is better. -/
  one : ∀ a b, effectiveDensity a ≠ effectiveDensity b →
    densityIsBetter b a request = !densityIsBetter a b request
  /-- What is better than a better one is better. -/
  trans : ∀ a b c, effectiveDensity a ≠ effectiveDensity b →
    effectiveDensity b ≠ effectiveDensity c → effectiveDensity a ≠ effectiveDensity c →
      densityIsBetter a b request = true → densityIsBetter b c request = true →
        densityIsBetter a c request = true
  /-- "Any" is the best one. -/
  any : ∀ b, b ≠ anyDensity → densityIsBetter anyDensity b request = true
  /-- Next to it the density that is asked for is the best one. -/
  requested : ∀ a b, effectiveDensity a = requestedDensity request →
    effectiveDensity b ≠ requestedDensity request → b ≠ anyDensity →
      densityIsBetter a b request = true
  /-- The order is that of variants which differ in their densities alone. -/
  variants : ∀ (device config : Config) a b, device.density = request →
    effectiveDensity a ≠ effectiveDensity b →
      isBetter { config with density := a } { config with density := b } device =
        densityIsBetter a b request

/-- Every request orders all densities. -/
theorem ordersDensities (request : UInt16) : OrdersDensities request where
  one _ _ := densityIsBetter_swap
  trans _ _ _ := densityIsBetter_trans
  any b _ := any_densityIsBetter b request
  requested _ _ := requested_densityIsBetter
  variants _ _ _ _ hrequest h := by
    rw [← hrequest]
    exact isBetter_of_density h

/-- Scaling 240 down to 160 is better than scaling 120 up, but 150 is much closer to 160. -/
example : densityIsBetter 240 120 160 = true ∧ densityIsBetter 240 150 160 = false := by decide

end Config

end AppResources
