import AppResources.Proofs.BestVariant
import AppResources.Proofs.SpecificityOrder

/-!
# The order of configurations

Configurations are ordered by one key after the other. Each key is a number or a list of bytes,
so that the order is a total preorder. What it does not tell apart is the same but for a computed
script. Neither the ranking nor specificity reads a computed script of the things it compares, so
equal configurations stand for each other wherever two are compared.

## Main definitions

* `Config.recorded`: a configuration without a computed script.

## Main results

* `transCmp_order`: the order is total.
* `order_eq_iff`: what the order does not tell apart.
* `isBetterFor_recorded_left`, `isBetterFor_recorded_right`: no comparison reads a computed
  script.
* `order_interchangeable`: a total preorder whose equal configurations are interchangeable.
-/

namespace AppResources

open Std

/-! ## Orders by keys -/

/-- Things are ordered if their keys are. -/
theorem transCmp_key {α β : Type} {cmp : β → β → Ordering} (h : TransCmp cmp) (key : α → β) :
    TransCmp fun a b => cmp (key a) (key b) where
  eq_swap := h.eq_swap
  isLE_trans := h.isLE_trans

theorem compareBytes_eq_compareLex (xs ys : List UInt8) :
    compareBytes xs ys = List.compareLex (compareOn UInt8.toNat) xs ys := by
  induction xs generalizing ys with
  | nil => cases ys <;> rfl
  | cons x xs ih =>
      cases ys with
      | nil => rfl
      | cons y ys =>
          rw [compareBytes, ih, List.compareLex_cons_cons]
          rfl

theorem transCmp_compareBytes : TransCmp compareBytes := by
  have hlex : compareBytes = List.compareLex (compareOn UInt8.toNat) :=
    funext fun xs => funext fun ys => compareBytes_eq_compareLex xs ys
  rw [hlex]
  infer_instance

namespace Locale

theorem transCmp_order : TransCmp order := by
  have hscript := transCmp_key transCmp_compareBytes fun l : Locale => l.ownScript.toList
  have hvariant := transCmp_key transCmp_compareBytes fun l : Locale => l.variant.toList
  have hnumbering := transCmp_key transCmp_compareBytes fun l : Locale => l.numbering.toList
  exact inferInstanceAs (TransCmp (compareLex (compareOn code)
    (compareLex (fun a b => compareBytes a.ownScript.toList b.ownScript.toList)
      (compareLex (fun a b => compareBytes a.variant.toList b.variant.toList)
        fun a b => compareBytes a.numbering.toList b.numbering.toList))))

/-! ## Computed scripts -/

theorem hasOwnScript_plain (l : Locale) : l.plain.hasOwnScript = l.hasOwnScript := by
  unfold hasOwnScript plain ownScript
  cases l.scriptComputed with
  | false => rfl
  | true => exact (Bool.and_false _).symm

/-- A computed script is no detail. -/
theorem detail_plain (l : Locale) : l.plain.detail = l.detail := by
  rw [detail, detail, hasOwnScript_plain]
  rfl

theorem specificityOver_plain_left (a b : Locale) :
    a.plain.specificityOver b = a.specificityOver b := by
  rw [specificityOver_eq, specificityOver_eq, detail_plain]
  rfl

theorem specificityOver_plain_right (a b : Locale) :
    a.specificityOver b.plain = a.specificityOver b := by
  rw [specificityOver_eq, specificityOver_eq, detail_plain]
  rfl

end Locale

namespace Config

variable {a b c : Config}

/-- The order compares one key after the other. -/
theorem transCmp_order : TransCmp order := by
  have hlocale := transCmp_key Locale.transCmp_order locale
  exact inferInstanceAs (TransCmp (compareLex (compareOn networkWord)
    (compareLex (fun a b => a.locale.order b.locale)
      (compareLex (compareOn screenTypeWord)
        (compareLex (compareOn inputWord)
          (compareLex (compareOn screenSizeWord)
            (compareLex (compareOn versionWord)
              (compareLex (compareOn fun c => c.screenLayout.toNat)
                (compareLex (compareOn fun c => c.screenLayout2.toNat)
                  (compareLex (compareOn fun c => c.colorMode.toNat)
                    (compareLex (compareOn fun c => c.uiMode.toNat)
                      (compareLex (compareOn fun c => c.smallestWidthDp.toNat)
                        (compareOn screenSizeDpWord)))))))))))))

/-- The configuration without a computed script. -/
def recorded (c : Config) : Config := { c with locale := c.locale.plain }

theorem order_recorded (a b : Config) : a.recorded.order b.recorded = a.order b := rfl

/-- The order tells all apart that differ by more than a computed script. -/
theorem order_eq_iff : a.order b = .eq ↔ a.recorded = b.recorded := by
  constructor
  · intro h
    have hlocale : a.locale.plain = b.locale.plain := by
      unfold order at h
      simp only [Ordering.then_eq_eq, Locale.order_eq_iff] at h
      exact h.2.1
    have hrecorded : ∀ c : Config, c.recorded = { c.unscripted with locale := c.locale.plain } :=
      fun _ => rfl
    rw [hrecorded, hrecorded, unscripted_of_order h, hlocale]
  · intro h
    have := transCmp_order
    rw [← order_recorded, h]
    exact ReflCmp.compare_self

example :
    let filled : Config :=
      { locale := { language := .english, script := .ofCode "Latn", scriptComputed := true } }
    filled.order { locale := { language := .english } } = .eq ∧
      filled ≠ { locale := { language := .english } } := by
  decide

/-! ## Comparisons -/

/-- No difference sees a computed script. -/
theorem difference_recorded (a b : Config) : a.recorded.difference b.recorded = a.difference b :=
  rfl

theorem difference_of_order (h : a.order b = .eq) : a.difference b = .none := by
  rw [← difference_recorded, order_eq_iff.mp h, ← Axes.isEmpty_iff, difference_isEmpty_iff]

theorem moreSpecificLocale_recorded_left (a b : Config) :
    moreSpecificLocale a.recorded b = moreSpecificLocale a b := by
  have hlocale := Locale.specificityOver_plain_left a.locale b.locale
  unfold moreSpecificLocale
  dsimp only [recorded]
  rw [hlocale]

theorem moreSpecificLocale_recorded_right (a b : Config) :
    moreSpecificLocale a b.recorded = moreSpecificLocale a b := by
  have hlocale := Locale.specificityOver_plain_right a.locale b.locale
  unfold moreSpecificLocale
  dsimp only [recorded]
  rw [hlocale]

theorem isMoreSpecific_recorded_left (a b : Config) :
    isMoreSpecific a.recorded b = isMoreSpecific a b := by
  unfold isMoreSpecific specificityAxes
  simp only [List.findSome?_cons, moreSpecificLocale_recorded_left]
  rfl

theorem isMoreSpecific_recorded_right (a b : Config) :
    isMoreSpecific a b.recorded = isMoreSpecific a b := by
  unfold isMoreSpecific specificityAxes
  simp only [List.findSome?_cons, moreSpecificLocale_recorded_right]
  rfl

/-- Neither the ranking nor specificity reads a computed script of the first configuration. -/
theorem isBetterFor_recorded_left (a b : Config) (request : Option Config) :
    isBetterFor a.recorded b request = isBetterFor a b request := by
  cases request with
  | none => exact isMoreSpecific_recorded_left a b
  | some device => rfl

/-- Nor do they read one of the second. -/
theorem isBetterFor_recorded_right (a b : Config) (request : Option Config) :
    isBetterFor a b.recorded request = isBetterFor a b request := by
  cases request with
  | none => exact isMoreSpecific_recorded_right a b
  | some device => rfl

/-! ## The laws -/

/-- The order is a total preorder, and configurations that are equal in it differ along no axis
and stand for each other in every comparison, with a device or without one. -/
theorem order_interchangeable :
    (∀ a : Config, a.order a = .eq) ∧
    (∀ a b : Config, b.order a = (a.order b).swap) ∧
    (∀ a b c : Config, (a.order b).isLE = true → (b.order c).isLE = true →
      (a.order c).isLE = true) ∧
    ∀ a b : Config, a.order b = .eq →
      a.difference b = .none ∧
      ∀ (c : Config) (request : Option Config),
        isBetterFor a c request = isBetterFor b c request ∧
          isBetterFor c a request = isBetterFor c b request := by
  have := transCmp_order
  refine ⟨fun a => ReflCmp.compare_self, fun a b => OrientedCmp.eq_swap,
    fun a b c => TransCmp.isLE_trans, fun a b h => ⟨difference_of_order h, fun c request => ?_⟩⟩
  have hrecorded := order_eq_iff.mp h
  constructor
  · rw [← isBetterFor_recorded_left a, hrecorded, isBetterFor_recorded_left]
  · rw [← isBetterFor_recorded_right c a, hrecorded, isBetterFor_recorded_right]

end Config

end AppResources
