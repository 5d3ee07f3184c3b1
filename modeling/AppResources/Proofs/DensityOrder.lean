import AppResources.Proofs.Preference

/-!
# The order of densities for a request

Two densities on one side of the request are compared by their distance from it. Of a
smaller and a larger one on different sides the larger one is better, unless the smaller
one is much closer. That comparison is no comparison of two keys by its look, as it
multiplies the two densities, but it is an order: a density that is much closer than a
larger one is so against every still larger one (`beatsLarger_of_lt`), and if it is much
closer than some density, then a density between the two beats the larger one or is
beaten by the smaller one (`beatsLarger_or`).

## Main results

* `ranks_preferScaled`: the comparison by scaling is an order.
* `ranks_preferEffective`: so it is with "any" before all densities.
* `preferDensity_eq`, `ranks_preferDensity`: the axis of the ranking is an order where unset
  and medium densities do not meet.
-/

namespace AppResources

namespace Config

open Preference

/-- Whether a density is better for a request than a larger one. -/
def beatsLarger (wanted low high : Nat) : Prop :=
  wanted ≤ low ∨ (wanted < high ∧ (wanted : Int) * wanted < (2 * (low : Int) - wanted) * high)

instance (wanted low high : Nat) : Decidable (beatsLarger wanted low high) := by
  unfold beatsLarger
  infer_instance

/-- The density that has to be scaled less, where scaling down costs less. -/
def preferScaled (wanted x y : Nat) : Preference :=
  if x = y then none
  else if x < y then some (decide (beatsLarger wanted x y))
  else some (!decide (beatsLarger wanted y x))

variable {wanted low middle high x y z : Nat}

/-! ## Much closer densities -/

/-- A density that beats a larger one beats all that are still larger. -/
theorem beatsLarger_of_lt (hmh : middle < high) (h : beatsLarger wanted low middle) :
    beatsLarger wanted low high := by
  rcases h with h | ⟨hwm, h⟩
  · exact Or.inl h
  · right
    have hpos : 0 < 2 * (low : Int) - wanted := by
      have hsquare : 0 ≤ (wanted : Int) * wanted := Int.mul_nonneg (by omega) (by omega)
      exact Int.pos_of_mul_pos_left (Int.lt_of_le_of_lt hsquare h) (by omega)
    refine ⟨by omega, ?_⟩
    calc (wanted : Int) * wanted < (2 * (low : Int) - wanted) * middle := h
      _ ≤ (2 * (low : Int) - wanted) * high :=
        Int.mul_le_mul_of_nonneg_left (by omega) (by omega)

/-- Between a density and a larger one that it beats there is no density that beats the
smaller and is beaten by the larger one. -/
theorem beatsLarger_or (hlm : low < middle) (h : beatsLarger wanted low high) :
    beatsLarger wanted low middle ∨ beatsLarger wanted middle high := by
  rcases h with h | ⟨hwh, h⟩
  · exact Or.inl (Or.inl h)
  · right
    right
    refine ⟨hwh, ?_⟩
    calc (wanted : Int) * wanted < (2 * (low : Int) - wanted) * high := h
      _ ≤ (2 * (middle : Int) - wanted) * high :=
        Int.mul_le_mul_of_nonneg_right (by omega) (by omega)

/-! ## The order -/

theorem preferScaled_of_lt (h : x < y) :
    preferScaled wanted x y = some (decide (beatsLarger wanted x y)) := by
  rw [preferScaled, if_neg (by omega), if_pos h]

theorem preferScaled_of_gt (h : y < x) :
    preferScaled wanted x y = some (!decide (beatsLarger wanted y x)) := by
  rw [preferScaled, if_neg (by omega), if_neg (by omega)]

theorem preferScaled_eq_none_iff : preferScaled wanted x y = none ↔ x = y := by
  unfold preferScaled
  split
  · simp [*]
  · split <;> simp [*]

/-- Of three densities the middle one keeps the outer ones from closing a circle. -/
theorem not_circular_of_lt (hxy : x < y) (hyz : y < z) :
    ¬ Circular (preferScaled wanted) x y z ∧ ¬ Circular (preferScaled wanted) x z y := by
  have hxz : x < z := by omega
  constructor
  · rintro ⟨h1, _, h3⟩
    rw [preferScaled_of_lt hxy] at h1
    rw [preferScaled_of_gt hxz] at h3
    have hbeats := beatsLarger_of_lt hyz (of_decide_eq_true (Option.some.inj h1))
    simp [hbeats] at h3
  · rintro ⟨h1, h2, h3⟩
    rw [preferScaled_of_lt hxz] at h1
    rw [preferScaled_of_gt hyz] at h2
    rw [preferScaled_of_gt hxy] at h3
    rcases beatsLarger_or hxy (of_decide_eq_true (Option.some.inj h1)) with h | h
    · simp [h] at h3
    · simp [h] at h2

/-- Scaling orders the densities. -/
theorem ranks_preferScaled : Ranks (fun _ => True) (preferScaled wanted) where
  swap x y _ _ := by
    rcases Nat.lt_trichotomy x y with h | h | h
    · rw [preferScaled_of_lt h, preferScaled_of_gt h]
      rfl
    · rw [preferScaled_eq_none_iff.mpr h, preferScaled_eq_none_iff.mpr h.symm]
      rfl
    · rw [preferScaled_of_lt h, preferScaled_of_gt h]
      simp
  tie x y z _ _ _ h := by
    rw [preferScaled_eq_none_iff.mp h]
  acyclic x y z _ _ _ h := by
    have hne : ∀ {u v}, preferScaled wanted u v = some true → u ≠ v := fun huv h => by
      rw [preferScaled_eq_none_iff.mpr h] at huv
      cases huv
    have hxy := hne h.1
    have hyz := hne h.2.1
    have hzx := hne h.2.2
    -- the smallest of the three comes first, the other two follow in either order
    rcases Nat.lt_or_gt_of_ne hxy with hxy | hxy <;>
      rcases Nat.lt_or_gt_of_ne hyz with hyz | hyz <;>
      rcases Nat.lt_or_gt_of_ne hzx with hzx | hzx
    · omega
    · exact (not_circular_of_lt hxy hyz).1 h
    · exact (not_circular_of_lt hzx hxy).1 h.rotate.rotate
    · exact (not_circular_of_lt hzx hyz).2 h
    · exact (not_circular_of_lt hyz hzx).1 h.rotate
    · exact (not_circular_of_lt hxy hzx).2 h.rotate
    · exact (not_circular_of_lt hyz hxy).2 h.rotate.rotate
    · omega

/-- The density that is better for a request: "any", or the one that is scaled less. -/
def preferEffective (wanted x y : Nat) : Preference :=
  (having (x == anyDensity.toNat) (y == anyDensity.toNat)).or (preferScaled wanted x y)

theorem ranks_preferEffective : Ranks (fun _ => True) (preferEffective wanted) :=
  (ranks_having fun x : Nat => x == anyDensity.toNat).or ranks_preferScaled

/-! ## The axis of the ranking -/

/-- The comparison of a smaller and a larger density case by case. -/
theorem decide_beatsLarger (h : low < high) :
    decide (beatsLarger wanted low high) =
      if high ≤ wanted then false
      else if wanted ≤ low then true
      else decide ((wanted : Int) * wanted < (2 * (low : Int) - wanted) * high) := by
  by_cases hhigh : high ≤ wanted
  · rw [if_pos hhigh, decide_eq_false_iff_not]
    rintro (hlow | ⟨hwanted, _⟩) <;> omega
  · by_cases hlow : wanted ≤ low
    · rw [if_neg hhigh, if_pos hlow, decide_eq_true_iff]
      exact Or.inl hlow
    · rw [if_neg hhigh, if_neg hlow, decide_eq_decide]
      exact ⟨fun hbeats => (hbeats.resolve_left hlow).2, fun hmuch => Or.inr ⟨by omega, hmuch⟩⟩

/-- Different effective densities are compared by scaling. -/
theorem densityIsBetter_eq {a b request : UInt16}
    (h : effectiveDensity a ≠ effectiveDensity b) :
    some (densityIsBetter a b request) =
      preferEffective (requestedDensity request) (effectiveDensity a) (effectiveDensity b) := by
  unfold densityIsBetter preferEffective
  generalize effectiveDensity a = mine at h ⊢
  generalize effectiveDensity b = other at h ⊢
  generalize requestedDensity request = wanted
  by_cases hmine : mine = anyDensity.toNat
  · have hother : other ≠ anyDensity.toNat := fun heq => h (hmine.trans heq.symm)
    simp [hmine, hother, having]
  · by_cases hother : other = anyDensity.toNat
    · simp [hmine, hother, having]
    · have hhaving : having (mine == anyDensity.toNat) (other == anyDensity.toNat) = none := by
        rw [beq_false_of_ne hmine, beq_false_of_ne hother]
        rfl
      rw [hhaving, Option.none_or]
      simp only [if_neg hmine, if_neg hother]
      rcases Nat.lt_or_gt_of_ne h with hlt | hlt
      · rw [preferScaled_of_lt hlt, Nat.max_eq_right (by omega), Nat.min_eq_left (by omega),
          decide_beatsLarger hlt, decide_eq_false (show ¬ other ≤ mine by omega)]
        split
        · rfl
        · split
          · rfl
          · split <;> simp_all
      · rw [preferScaled_of_gt hlt, Nat.max_eq_left (by omega), Nat.min_eq_right (by omega),
          decide_beatsLarger hlt, decide_eq_true (show other ≤ mine by omega)]
        split
        · rfl
        · split
          · rfl
          · split <;> simp_all

/-- Only "any" counts as "any". -/
theorem effectiveDensity_ne_any {d : UInt16} (hd : d ≠ anyDensity) :
    effectiveDensity d ≠ anyDensity.toNat := by
  unfold effectiveDensity
  split
  · decide
  · exact fun h => hd (UInt16.toNat_inj.mp h)

/-- Where one of "unset" and "medium" is spared, the density that counts tells all densities
apart. -/
theorem effectiveDensity_inj {spare d e : UInt16} (hspare : spare = 0 ∨ spare = mediumDensity)
    (hd : d ≠ spare) (he : e ≠ spare) (h : effectiveDensity d = effectiveDensity e) : d = e := by
  unfold effectiveDensity at h
  by_cases hd0 : d = 0
  · by_cases he0 : e = 0
    · rw [hd0, he0]
    · rw [if_pos hd0, if_neg he0] at h
      have hmedium := UInt16.toNat_inj.mp h
      rcases hspare with rfl | rfl
      · exact absurd hd0 hd
      · exact absurd hmedium.symm he
  · by_cases he0 : e = 0
    · rw [if_neg hd0, if_pos he0] at h
      have hmedium := UInt16.toNat_inj.mp h
      rcases hspare with rfl | rfl
      · exact absurd he0 he
      · exact absurd hmedium hd
    · rw [if_neg hd0, if_neg he0] at h
      exact UInt16.toNat_inj.mp h

/-- Where one of "unset" and "medium" is spared, the axis of the ranking compares the
densities that count. -/
theorem preferDensity_eq {spare : UInt16} {device a b : Config}
    (hspare : spare = 0 ∨ spare = mediumDensity) (ha : a.density ≠ spare)
    (hb : b.density ≠ spare) :
    preferDensity device a b =
      preferEffective (requestedDensity device.density) (effectiveDensity a.density)
        (effectiveDensity b.density) := by
  unfold preferDensity
  by_cases h : a.density = b.density
  · rw [if_pos h, h, ranks_preferEffective.irrefl trivial]
  · rw [if_neg h]
    exact densityIsBetter_eq fun heq => h (effectiveDensity_inj hspare ha hb heq)

/-- There it is an order. -/
theorem ranks_preferDensity {S : Config → Prop} {spare : UInt16} (device : Config)
    (hspare : spare = 0 ∨ spare = mediumDensity) (hS : ∀ c, S c → c.density ≠ spare) :
    Ranks S (preferDensity device) :=
  (ranks_preferEffective.comap (fun c : Config => effectiveDensity c.density)
    fun _ _ => trivial).congr fun a b ha hb => preferDensity_eq hspare (hS a ha) (hS b hb)

end Config

end AppResources
