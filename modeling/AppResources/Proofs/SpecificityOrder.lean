import AppResources.Proofs.Preference
import Mathlib.Order.Defs.Unbundled

/-!
# The order of specificity

Without a device two configurations are compared by what they set, and not by the values. So each
axis compares a key: a field whether it is set, and a locale whether it has a language, then
whether it has a region, and then how much else it asks for. A sequence of such axes is a strict
weak order, on all configurations there are.

## Main results

* `Ranks.isStrictWeakOrder`: an axis that is an order of everything, in the library's words.
* `ranks_onlyOneSet`, `ranks_moreSpecificLocale`: the axes compare keys.
* `isStrictWeakOrder_isMoreSpecific`: specificity is a strict weak order.
-/

namespace AppResources

namespace Preference

variable {α : Type} {p : α → α → Preference} {a b : α}

/-- Two things of which neither is preferred are alike. -/
theorem Coherent.eq_none_iff {S : α → Prop} (hp : Coherent S p) (ha : S a) (hb : S b) :
    p a b = none ↔ p a b ≠ some true ∧ p b a ≠ some true := by
  rw [hp.swap a b ha hb]
  cases p a b with
  | none => simp
  | some x => cases x <;> simp

/-- The smaller one of two numbers by the sign of their difference. -/
theorem smaller_eq_sign (x y : Int) :
    smaller x y = if y - x < 0 then some false else if 0 < y - x then some true else none := by
  unfold smaller
  rcases Int.lt_trichotomy x y with h | h | h
  · rw [if_neg (by omega), if_neg (by omega), if_pos (by omega), decide_eq_true h]
  · rw [if_pos h, if_neg (by omega), if_neg (by omega)]
  · rw [if_neg (by omega), if_pos (by omega), decide_eq_false (by omega)]

/-- An axis that orders everything is a strict weak order. -/
theorem Ranks.isStrictWeakOrder (hp : Ranks (fun _ => True) p) :
    IsStrictWeakOrder α fun a b => p a b = some true where
  irrefl a h := by
    rw [hp.irrefl trivial] at h
    cases h
  trans a b c := hp.trans trivial trivial trivial
  incomp_trans a b c hab hbc := by
    rw [← hp.eq_none_iff trivial trivial] at hab hbc ⊢
    rw [hp.tie a b c trivial trivial trivial hab, hbc]

end Preference

open Preference

/-! ## Axes -/

namespace Config

variable {α : Type} [BEq α] [LawfulBEq α]

/-- What sets a field is more specific than what does not. -/
theorem onlyOneSet_eq_having (unset x y : α) :
    onlyOneSet unset x y = having (x != unset) (y != unset) := by
  unfold onlyOneSet having
  by_cases hxy : x = y
  · simp [hxy]
  · by_cases hx : x = unset
    · subst hx
      have hy : (y != x) = true := bne_iff_ne.mpr (Ne.symm hxy)
      simp [hxy, hy]
    · have hx' : (x != unset) = true := bne_iff_ne.mpr hx
      by_cases hy : y = unset
      · simp [hx, hy, hx']
      · have hy' : (y != unset) = true := bne_iff_ne.mpr hy
        simp [hx, hy, hx', hy']

theorem ranks_onlyOneSet (unset : α) (get : Config → α) :
    Ranks (fun _ => True) fun a b => onlyOneSet unset (get a) (get b) :=
  (ranks_having fun c => get c != unset).congr fun _ _ _ _ => onlyOneSet_eq_having _ _ _

end Config

namespace Locale

/-- Which of two locales has a language or, if that does not tell them apart, a region. -/
def preferCode (a b : Locale) : Preference :=
  (Config.onlyOneSet 0 a.language.first b.language.first).or
    (Config.onlyOneSet 0 a.region.first b.region.first)

/-- Locales without any code do not differ in their codes. -/
theorem preferCode_of_codes {a b : Locale} (ha : a.code = 0) (hb : b.code = 0) :
    preferCode a b = none := by
  have hfirst : ∀ l : Locale, l.code = 0 → l.language.first = 0 ∧ l.region.first = 0 := by
    intro l hl
    unfold code at hl
    exact ⟨UInt8.toNat_inj.mp (by rw [UInt8.toNat_zero]; omega),
      UInt8.toNat_inj.mp (by rw [UInt8.toNat_zero]; omega)⟩
  obtain ⟨halanguage, haregion⟩ := hfirst a ha
  obtain ⟨hblanguage, hbregion⟩ := hfirst b hb
  rw [preferCode, halanguage, hblanguage, haregion, hbregion]
  rfl

/-- Locales are compared by their codes first, and then by what else they ask for. -/
theorem specificityOver_eq (a b : Locale) :
    a.specificityOver b =
      match preferCode a b with
      | some true => 1
      | some false => -1
      | none => a.detail - b.detail := by
  unfold specificityOver
  by_cases hcode : a.code = 0 ∧ b.code = 0
  · rw [if_pos hcode, preferCode_of_codes hcode.1 hcode.2]
  · rw [if_neg hcode, preferCode]
    cases Config.onlyOneSet 0 a.language.first b.language.first <;> rfl

end Locale

namespace Config

theorem moreSpecificLocale_eq (a b : Config) :
    moreSpecificLocale a b =
      (Locale.preferCode a.locale b.locale).or (smaller b.locale.detail a.locale.detail) := by
  unfold moreSpecificLocale
  rw [Locale.specificityOver_eq]
  cases Locale.preferCode a.locale b.locale with
  | some x => cases x <;> rfl
  | none => exact (smaller_eq_sign _ _).symm

theorem ranks_moreSpecificLocale : Ranks (fun _ => True) moreSpecificLocale :=
  (((ranks_onlyOneSet 0 fun c => c.locale.language.first).or
    (ranks_onlyOneSet 0 fun c => c.locale.region.first)).or
      (ranks_smaller fun c : Config => c.locale.detail).flip).congr
        fun a b _ _ => moreSpecificLocale_eq a b

/-! ## The sequence of the axes -/

/-- All axes of specificity are orders. -/
theorem ranks_specificityAxes : ∀ axis ∈ specificityAxes, Ranks (fun _ => True) axis := by
  have hfield : ∀ f, Ranks (fun _ => True) (onlyOneSetField f) := fun f => ranks_onlyOneSet 0 f.get
  have hword : ∀ get, Ranks (fun _ => True) (onlyOneSet16 get) := fun get => ranks_onlyOneSet 0 get
  unfold specificityAxes
  simp only [List.forall_mem_cons]
  exact ⟨hword _, hword _, ranks_moreSpecificLocale, hfield _, hword _, hword _, hword _, hfield _,
    hfield _, hfield _, hfield _, hfield _, hfield _, hfield _, hfield _, hfield _, hfield _,
    hfield _, hfield _, hfield _, hword _, hword _, hword _, hword _,
    fun _ h => absurd h List.not_mem_nil⟩

/-- The first preference of the axes of specificity. -/
def preferSpecific (a b : Config) : Preference :=
  specificityAxes.findSome? fun axis => axis a b

theorem ranks_preferSpecific : Ranks (fun _ => True) preferSpecific := by
  have hranks : Ranks (fun _ => True)
      (firstPreference (specificityAxes.map fun axis _ => axis) default) := by
    refine firstPreference_ranks fun axis haxis => ?_
    obtain ⟨axis, hmem, rfl⟩ := List.mem_map.mp haxis
    exact ranks_specificityAxes axis hmem
  refine hranks.congr fun a b _ _ => ?_
  rw [firstPreference, List.findSome?_map]
  rfl

theorem isMoreSpecific_iff (a b : Config) :
    isMoreSpecific a b = true ↔ preferSpecific a b = some true := by
  unfold isMoreSpecific preferSpecific
  cases specificityAxes.findSome? fun axis => axis a b <;> simp

/-- Without a device the ranking is a strict weak order on all configurations. -/
theorem isStrictWeakOrder_isMoreSpecific :
    IsStrictWeakOrder Config (fun a b => isMoreSpecific a b = true) ∧
      (∀ a b, isMoreSpecific a b = true → isMoreSpecific b a = false) ∧
      ∀ a b, isBetterFor a b none = isMoreSpecific a b := by
  refine ⟨?_, fun a b hab => ?_, fun _ _ => rfl⟩
  · simp only [isMoreSpecific_iff]
    exact ranks_preferSpecific.isStrictWeakOrder
  · rw [Bool.eq_false_iff, ne_eq, isMoreSpecific_iff,
      ranks_preferSpecific.asymm trivial trivial ((isMoreSpecific_iff a b).mp hab)]
    decide

/-- Two country codes are equally specific, whichever they are, so the network code decides. -/
example : isMoreSpecific { mcc := 310, mnc := 4 } { mcc := 262 } = true := by decide

end Config

end AppResources
