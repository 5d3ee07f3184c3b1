import AppResources.Encoding.Package

/-!
# Lists under ascending numbers

The builders keep their values in lists of pairs whose numbers ascend. A change under one
number keeps the order and is seen under that number alone, and the bound of a list is one
more than the greatest number in it.

## Main definitions

* `Numbered.Ascending`: the numbers of a list ascend.

## Main results

* `Numbered.ascending_alter`: a change keeps the numbers ascending.
* `Numbered.lookup_alter`: what is found after a change.
* `Numbered.bound_alter`: the bound after a change.
-/

namespace AppResources.Numbered

variable {α : Type} {items : List (Nat × α)} {item : Nat × α} {key k bound : Nat} {a : α}
  {f : Option α → α}

/-- The numbers ascend. -/
def Ascending (items : List (Nat × α)) : Prop :=
  items.Pairwise fun x y => x.1 < y.1

theorem ascending_nil : Ascending ([] : List (Nat × α)) := List.Pairwise.nil

/-! ## Lookups -/

theorem lookup_eq_none_of_forall_ne (h : ∀ item ∈ items, item.1 ≠ k) : items.lookup k = none := by
  rw [List.lookup_eq_none_iff]
  intro item hitem
  simpa using (h item hitem).symm

theorem lookup_cons_eq_ite :
    List.lookup k (item :: items) = if k = item.1 then some item.2 else items.lookup k := by
  rw [List.lookup_cons]
  by_cases hk : k = item.1
  · rw [if_pos hk, hk, beq_self_eq_true]
  · rw [if_neg hk, beq_eq_false_iff_ne.mpr hk]

theorem lookup_eq_some_iff (h : Ascending items) :
    items.lookup k = some a ↔ (k, a) ∈ items := by
  induction items with
  | nil => simp
  | cons item rest ih =>
      obtain ⟨hfirst, hrest⟩ := List.pairwise_cons.mp h
      rw [lookup_cons_eq_ite, List.mem_cons]
      by_cases hk : k = item.1
      · have hnot : (k, a) ∉ rest := fun hmem => Nat.ne_of_gt (hfirst _ hmem) hk
        simp only [if_pos hk, Option.some.injEq, hnot, or_false]
        exact ⟨fun heq => Prod.ext hk heq.symm, fun heq => (congrArg Prod.snd heq).symm⟩
      · have hne : (k, a) ≠ item := fun heq => hk (congrArg Prod.fst heq)
        simp only [if_neg hk, hne, false_or]
        exact ih hrest

/-! ## Changes -/

theorem mem_alter (h : item ∈ alter key f items) : item.1 = key ∨ item ∈ items := by
  induction items with
  | nil =>
      rw [alter, List.mem_singleton] at h
      exact .inl (congrArg Prod.fst h)
  | cons first rest ih =>
      obtain ⟨k, a⟩ := first
      rw [alter] at h
      split at h
      · obtain rfl | hmem := List.mem_cons.mp h
        · exact .inl rfl
        · exact .inr hmem
      · next hlt =>
        split at h
        · next heq =>
          obtain rfl | hmem := List.mem_cons.mp h
          · exact .inl heq.symm
          · exact .inr (List.mem_cons_of_mem _ hmem)
        · obtain rfl | hmem := List.mem_cons.mp h
          · exact .inr List.mem_cons_self
          · exact (ih hmem).imp_right (List.mem_cons_of_mem _)

/-- A change keeps the numbers ascending. -/
theorem ascending_alter (h : Ascending items) : Ascending (alter key f items) := by
  induction items with
  | nil => exact List.pairwise_singleton _ _
  | cons first rest ih =>
      obtain ⟨k, a⟩ := first
      obtain ⟨hfirst, hrest⟩ := List.pairwise_cons.mp h
      rw [alter]
      split
      · next hlt =>
        refine List.pairwise_cons.mpr ⟨?_, h⟩
        intro item hitem
        obtain rfl | hmem := List.mem_cons.mp hitem
        · exact hlt
        · exact Nat.lt_trans hlt (hfirst item hmem)
      · next hle =>
        split
        · exact List.pairwise_cons.mpr ⟨hfirst, hrest⟩
        · next hne =>
          refine List.pairwise_cons.mpr ⟨?_, ih hrest⟩
          intro item hitem
          obtain hkey | hmem := mem_alter hitem
          · show k < item.1
            omega
          · exact hfirst item hmem

/-- A change is seen under its own number alone. -/
theorem lookup_alter (h : Ascending items) :
    (alter key f items).lookup k =
      if k = key then some (f (items.lookup key)) else items.lookup k := by
  induction items with
  | nil => exact lookup_cons_eq_ite
  | cons first rest ih =>
      obtain ⟨number, a⟩ := first
      obtain ⟨hfirst, hrest⟩ := List.pairwise_cons.mp h
      rw [alter]
      by_cases hlt : key < number
      · have hnone : List.lookup key ((number, a) :: rest) = none := by
          apply lookup_eq_none_of_forall_ne
          intro item hitem
          obtain rfl | hmem := List.mem_cons.mp hitem
          · exact Nat.ne_of_gt hlt
          · exact Nat.ne_of_gt (Nat.lt_trans hlt (hfirst item hmem))
        rw [if_pos hlt, hnone]
        exact lookup_cons_eq_ite
      · rw [if_neg hlt]
        by_cases heq : key = number
        · subst heq
          simp only [if_true, lookup_cons_eq_ite]
          split <;> rfl
        · rw [if_neg heq]
          simp only [lookup_cons_eq_ite, if_neg heq, ih hrest]
          by_cases hnumber : k = number
          · have hne : k ≠ key := fun hk => heq (hk.symm.trans hnumber)
            rw [if_pos hnumber, if_neg hne, if_pos hnumber]
          · rw [if_neg hnumber, if_neg hnumber]

/-! ## Bounds -/

theorem bound_cons (h : Ascending (item :: items)) :
    Numbered.bound (item :: items) = max (item.1 + 1) (Numbered.bound items) := by
  obtain ⟨hfirst, _⟩ := List.pairwise_cons.mp h
  cases hlast : items.getLast? with
  | none =>
      rw [List.getLast?_eq_none_iff.mp hlast]
      rfl
  | some last =>
      have hlt := hfirst last (List.mem_of_getLast? hlast)
      rw [Numbered.bound, Numbered.bound, List.getLast?_cons, hlast]
      show last.1 + 1 = max (item.1 + 1) (last.1 + 1)
      omega

theorem bound_concat : Numbered.bound (items ++ [item]) = item.1 + 1 := by
  rw [Numbered.bound, List.getLast?_concat]

theorem lt_bound (h : Ascending items) (hitem : item ∈ items) : item.1 < Numbered.bound items := by
  induction items with
  | nil => cases hitem
  | cons first rest ih =>
      obtain ⟨_, hrest⟩ := List.pairwise_cons.mp h
      rw [bound_cons h]
      obtain rfl | hmem := List.mem_cons.mp hitem
      · omega
      · have := ih hrest hmem
        omega

theorem lookup_eq_none_of_bound_le (h : Ascending items) (hk : Numbered.bound items ≤ k) :
    items.lookup k = none := by
  apply lookup_eq_none_of_forall_ne
  intro item hitem
  have := lt_bound h hitem
  omega

/-- A change under a number moves the bound behind it. -/
theorem bound_alter (h : Ascending items) :
    Numbered.bound (alter key f items) = max (Numbered.bound items) (key + 1) := by
  induction items with
  | nil => exact (Nat.zero_max _).symm
  | cons first rest ih =>
      have haltered : Ascending (alter key f (first :: rest)) := ascending_alter h
      obtain ⟨number, a⟩ := first
      obtain ⟨_, hrest⟩ := List.pairwise_cons.mp h
      rw [bound_cons h]
      rw [alter] at haltered ⊢
      by_cases hlt : key < number
      · rw [if_pos hlt] at haltered ⊢
        rw [bound_cons haltered, bound_cons h]
        show max (key + 1) _ = max _ (key + 1)
        omega
      · rw [if_neg hlt] at haltered ⊢
        by_cases heq : key = number
        · rw [if_pos heq] at haltered ⊢
          rw [bound_cons haltered]
          show max (number + 1) _ = max (max (number + 1) _) (key + 1)
          omega
        · rw [if_neg heq] at haltered ⊢
          rw [bound_cons haltered, ih hrest]
          exact (Nat.max_assoc _ _ _).symm

/-! ## Values under the numbers below a bound -/

theorem length_dense (bound : Nat) (items : List (Nat × α)) :
    (dense bound items).length = bound := by
  rw [dense, List.length_map, List.length_range]

theorem mem_of_some_mem_dense (h : some a ∈ dense bound items) : ∃ key, (key, a) ∈ items := by
  obtain ⟨key, _, hkey⟩ := List.mem_map.mp h
  obtain ⟨before, after, rfl, _⟩ := List.lookup_eq_some_iff.mp hkey
  exact ⟨key, by simp⟩

end AppResources.Numbered
