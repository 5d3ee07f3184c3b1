import AppResources.Config.Difference
import AppResources.Proofs.PackedSubtag

/-!
# What the difference of two configurations sees

Two configurations differ along some axis exactly if their *plain* forms are different:
the configurations without a computed script and without the bits of a byte that belong to
no field. So "no difference" is an equivalence.

## Main results

* `Locale.order_eq_iff`: the order of locales sees all but a computed script.
* `difference_isEmpty_iff`: no difference means equal plain forms.
-/

namespace AppResources

/-! ## Orders that compare everything -/

theorem compareBytes_eq_iff {xs ys : List UInt8} : compareBytes xs ys = .eq ↔ xs = ys := by
  induction xs generalizing ys with
  | nil => cases ys <;> simp [compareBytes]
  | cons x xs ih =>
      cases ys with
      | nil => simp [compareBytes]
      | cons y ys =>
          rw [compareBytes, Ordering.then_eq_eq, Nat.compare_eq_eq, ih, UInt8.toNat_inj,
            List.cons.injEq]

namespace Locale

/-- Language and region are read back from the code. -/
theorem code_inj {a b : Locale} (h : a.code = b.code) :
    a.language = b.language ∧ a.region = b.region := by
  unfold code at h
  have ha1 := a.language.first.toNat_lt
  have ha2 := a.language.second.toNat_lt
  have ha3 := a.region.first.toNat_lt
  have hb1 := b.language.first.toNat_lt
  have hb2 := b.language.second.toNat_lt
  have hb3 := b.region.first.toNat_lt
  exact ⟨Subtag.ext_toNat (by omega) (by omega), Subtag.ext_toNat (by omega) (by omega)⟩

/-- The locale without a computed script. -/
def plain (l : Locale) : Locale :=
  { l with script := l.ownScript, scriptComputed := false }

/-- The order of locales tells all apart that differ by more than a computed script. -/
theorem order_eq_iff {a b : Locale} : a.order b = .eq ↔ a.plain = b.plain := by
  rw [order, Ordering.then_eq_eq, Ordering.then_eq_eq, Ordering.then_eq_eq, Nat.compare_eq_eq,
    compareBytes_eq_iff, compareBytes_eq_iff, compareBytes_eq_iff, Vector.toList_inj,
    Vector.toList_inj, Vector.toList_inj]
  unfold plain
  rw [Locale.mk.injEq]
  constructor
  · rintro ⟨hcode, hscript, hvariant, hnumbering⟩
    obtain ⟨hlanguage, hregion⟩ := code_inj hcode
    exact ⟨hlanguage, hregion, hscript, rfl, hvariant, hnumbering⟩
  · rintro ⟨hlanguage, hregion, hscript, _, hvariant, hnumbering⟩
    exact ⟨by rw [code, code, hlanguage, hregion], hscript, hvariant, hnumbering⟩

end Locale

namespace Axes

theorem isEmpty_iff {a : Axes} : a.isEmpty = true ↔ a = .none := by
  cases a
  simp [isEmpty, Axes.none]

theorem union_eq_none_iff {a b : Axes} : a.union b = .none ↔ a = .none ∧ b = .none := by
  cases a
  cases b
  simp only [union, Axes.none, Axes.mk.injEq]
  exact UInt32.or_eq_zero_iff

/-- A union is empty if all its members are. -/
theorem foldl_union_eq_none_iff {as : List Axes} {start : Axes} :
    as.foldl union start = .none ↔ start = .none ∧ ∀ a ∈ as, a = .none := by
  induction as generalizing start with
  | nil => simp
  | cons a as ih => rw [List.foldl_cons, ih, union_eq_none_iff, List.forall_mem_cons, and_assoc]

theorem when_eq_none_iff {condition : Bool} {a : Axes} (ha : a ≠ .none) :
    Axes.when condition a = .none ↔ condition = false := by
  cases condition <;> simp [Axes.when, ha]

end Axes

namespace Config

/-- The configuration without a computed script and without the bits that belong to no
field. -/
def plain (c : Config) : Config :=
  { c with
    locale := c.locale.plain
    inputFlags := c.inputFlags &&& 0x0f
    screenLayout2 := c.screenLayout2 &&& 0x03
    colorMode := c.colorMode &&& 0x0f }

variable {a b : Config}

theorem get_plain (f : ConfigField) (c : Config) : f.get c.plain = f.get c := by
  cases f <;> simp only [ConfigField.get, ConfigField.byte, plain] <;> rw [UInt8.and_assoc] <;> rfl

/-! ## Fields that share a byte or a word -/

/-- Bytes agree on the bits of two masks together if they agree on both. -/
theorem and_or_eq_iff {x y m n : UInt8} :
    x &&& (m ||| n) = y &&& (m ||| n) ↔ x &&& m = y &&& m ∧ x &&& n = y &&& n := by
  have hdistrib : ∀ z : UInt8, z &&& (m ||| n) = (z &&& m) ||| (z &&& n) := fun z =>
    UInt8.toBitVec_inj.mp BitVec.and_or_distrib_left
  have hleft : ∀ z : UInt8, z &&& (m ||| n) &&& m = z &&& m := by
    intro z
    apply UInt8.toBitVec_inj.mp
    apply BitVec.eq_of_getLsbD_eq
    intro i hi
    simp
    grind
  have hright : ∀ z : UInt8, z &&& (m ||| n) &&& n = z &&& n := by
    intro z
    apply UInt8.toBitVec_inj.mp
    apply BitVec.eq_of_getLsbD_eq
    intro i hi
    simp
    grind
  constructor
  · intro h
    exact ⟨by rw [← hleft x, h, hleft], by rw [← hright x, h, hright]⟩
  · rintro ⟨hm, hn⟩
    rw [hdistrib, hdistrib, hm, hn]

theorem inputFlags_eq_iff : a.inputFlags &&& 0x0f = b.inputFlags &&& 0x0f ↔
    ConfigField.keysHidden.get a = ConfigField.keysHidden.get b ∧
      ConfigField.navigationHidden.get a = ConfigField.navigationHidden.get b :=
  and_or_eq_iff (m := 0x03) (n := 0x0c)

theorem colorMode_eq_iff : a.colorMode &&& 0x0f = b.colorMode &&& 0x0f ↔
    ConfigField.gamut.get a = ConfigField.gamut.get b ∧
      ConfigField.dynamicRange.get a = ConfigField.dynamicRange.get b :=
  and_or_eq_iff (m := 0x03) (n := 0x0c)

/-- The fields of a screen layout are all of its byte. -/
theorem screenLayout_eq_iff : a.screenLayout = b.screenLayout ↔
    ConfigField.layoutDirection.get a = ConfigField.layoutDirection.get b ∧
      ConfigField.sizeClass.get a = ConfigField.sizeClass.get b ∧
        ConfigField.aspect.get a = ConfigField.aspect.get b := by
  have hall : ∀ z : UInt8, z = z &&& (0xc0 ||| (0x0f ||| 0x30)) := fun z => UInt8.and_neg_one.symm
  rw [hall a.screenLayout, hall b.screenLayout, and_or_eq_iff, and_or_eq_iff]
  rfl

theorem pair_inj {x y x' y' : UInt16} : pair x y = pair x' y' ↔ x = x' ∧ y = y' := by
  have hx := x.toNat_lt
  have hx' := x'.toNat_lt
  rw [← UInt16.toNat_inj, ← UInt16.toNat_inj]
  unfold pair
  omega

/-! ## No difference -/

/-- Configurations do not differ if they are equal but for a computed script and for bits
that belong to no field. -/
theorem difference_isEmpty_iff : (a.difference b).isEmpty = true ↔ a.plain = b.plain := by
  rw [Axes.isEmpty_iff, difference, Axes.foldl_union_eq_none_iff]
  simp only [List.forall_mem_cons, true_and, List.not_mem_nil, false_implies, implies_true,
    and_true]
  iterate 18 rw [Axes.when_eq_none_iff (by decide)]
  simp only [bne_eq_false_iff_eq, Bool.or_eq_false_iff, fieldDiffers, Locale.order_eq_iff,
    screenSizeWord, versionWord, screenSizeDpWord, pair_inj, plain, Config.mk.injEq,
    inputFlags_eq_iff, colorMode_eq_iff, screenLayout_eq_iff]
  have hround : a.screenLayout2 &&& 0x03 = b.screenLayout2 &&& 0x03 ↔
      ConfigField.roundness.get a = ConfigField.roundness.get b := Iff.rfl
  rw [hround]
  constructor
  · intro h
    simp only [h, and_self]
  · intro h
    simp only [h, and_self]

end Config

end AppResources
