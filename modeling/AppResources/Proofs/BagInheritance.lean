import AppResources.Proofs.BagMerge
import AppResources.Proofs.BagSession
import AppResources.Proofs.Selection

/-!
# Whose entry a bag inherits

A bag inherits from its parent, from the parent of its parent, and so on up to the first bag
that names no parent or is its own ancestor. These bags are its lineage. Under a key the bag
answers with the entry of the first bag of its lineage that has one; where the keys of all of
them ascend, those of the answer do, and so the bisection finds what is there.

## Main definitions

* `Resources.Lineage`: the bags that a bag has its entries from, the nearest first.

## Main results

* `exists_lineage_iff`: there is a lineage exactly if all ancestors of a bag can be read.
* `Lineage.flat`: what a bag is with all it inherits.
* `bag_of_lineage`: the answer of a lookup.
-/

namespace AppResources

namespace Resources

open Bag

variable {r : Resources} {id above : ResourceId} {own : OwnBag} {chain rest : List OwnBag}

/-- The bags from a bag up to the first one without a parent or on a cycle of parents. -/
inductive Lineage (r : Resources) : ResourceId → List OwnBag → Prop where
  | last {id : ResourceId} {own : OwnBag} (hown : r.ownBag id = .ok own)
      (halone : own.parent = 0 ∨ r.OnCycle id) : Lineage r id [own]
  | heir {id : ResourceId} {own : OwnBag} {rest : List OwnBag} (hown : r.ownBag id = .ok own)
      (hparent : own.parent ≠ 0) (hcycle : ¬ r.OnCycle id) (hrest : Lineage r own.parent rest) :
      Lineage r id (own :: rest)

/-! ## Which bags have a lineage -/

/-- Of a bag that is its own ancestor all ancestors can be read. -/
theorem OnCycle.exists_ownBag (h : r.OnCycle id) (hup : Relation.ReflTransGen r.Parent id above) :
    ∃ own, r.ownBag above = .ok own := by
  have hback : Relation.TransGen r.Parent above id := by
    rcases Relation.reflTransGen_iff_eq_or_transGen.mp hup with rfl | hup
    · exact h
    · rcases h.back hup with rfl | hback
      · exact h
      · exact hback
  obtain ⟨next, hnext, -⟩ := transGen_head hback
  cases hown : r.ownBag above with
  | ok own => exact ⟨own, rfl⟩
  | error e =>
      rw [Parent, parent?_of_error hown] at hnext
      cases hnext

/-- All bags above a bag with a lineage can be read. -/
theorem Lineage.exists_ownBag (h : Lineage r id chain)
    (hup : Relation.ReflTransGen r.Parent id above) : ∃ own, r.ownBag above = .ok own := by
  induction h with
  | @last id own hown halone =>
      rcases halone with hroot | hcycle
      · rcases Relation.ReflTransGen.cases_head hup with rfl | ⟨next, hnext, -⟩
        · exact ⟨own, hown⟩
        · rw [Parent, parent?_of_root hown hroot] at hnext
          cases hnext
      · exact hcycle.exists_ownBag hup
  | @heir id own rest hown hparent hcycle hrest ih =>
      rcases Relation.ReflTransGen.cases_head hup with rfl | ⟨next, hnext, hup⟩
      · exact ⟨own, hown⟩
      · rw [Parent, parent?_of_ok hown hparent, Option.some.injEq] at hnext
        exact ih (hnext ▸ hup)

/-- A bag has a lineage if it and all bags above it can be read. -/
theorem exists_lineage_iff :
    (∃ chain, Lineage r id chain) ↔
      ∀ above, Relation.ReflTransGen r.Parent id above → ∃ own, r.ownBag above = .ok own := by
  constructor
  · rintro ⟨chain, h⟩ above hup
    exact h.exists_ownBag hup
  · intro h
    -- the bags above inherit from fewer and fewer others
    induction id using r.wellFounded_inheritedBy.induction with
    | _ id ih =>
        obtain ⟨own, hown⟩ := h id .refl
        by_cases halone : own.parent = 0 ∨ r.OnCycle id
        · exact ⟨[own], .last hown halone⟩
        · obtain ⟨hparent, hcycle⟩ := not_or.mp halone
          have hstep : r.Parent id own.parent := parent?_of_ok hown hparent
          obtain ⟨rest, hrest⟩ := ih own.parent ⟨hstep, hcycle⟩ fun above hup =>
            h above (Relation.ReflTransGen.head hstep hup)
          exact ⟨own :: rest, .heir hown hparent hcycle hrest⟩

/-! ## What is inherited -/

/-- The entry of the first bag that has one under a key. -/
def firstUnder? (k : ResourceId) (chain : List OwnBag) : Option BagEntry :=
  chain.findSome? fun own => own.entries.find? (·.key == k)

/-- The axes of all bags together. -/
def axesOfAll (chain : List OwnBag) : Axes :=
  (chain.map (·.axes)).foldr Axes.union .none

/-- With all it inherits a bag has the entries and the axes of its lineage. -/
theorem Lineage.flat (h : Lineage r id chain) (hkeys : ∀ own ∈ chain, Ascends own.entries) :
    ∃ bag, r.flat id = .ok bag ∧ Ascends bag.entries ∧
      (∀ k, bag.entries.find? (·.key == k) = firstUnder? k chain) ∧
      bag.axes = axesOfAll chain := by
  induction h with
  | @last id own hown halone =>
      refine ⟨own.bag, flat_of_alone hown halone, hkeys own List.mem_cons_self, ?_, ?_⟩
      · intro k
        simp [firstUnder?, OwnBag.bag]
      · exact (Axes.union_none own.axes).symm
  | @heir id own rest hown hparent hcycle hrest ih =>
      rw [List.forall_mem_cons] at hkeys
      obtain ⟨parent, hflat, hascends, hfind, haxes⟩ := ih hkeys.2
      refine ⟨own.inherit parent, ?_, ?_, ?_, ?_⟩
      · rw [flat_of_parent hown hparent hcycle, hflat]
        rfl
      · exact ascends_merge_iff.mpr ⟨hkeys.1, hascends⟩
      · intro k
        have hmerged := @find?_entries_merge own.entries parent.entries k hkeys.1
        rw [hfind] at hmerged
        refine hmerged.trans ?_
        rw [firstUnder?, firstUnder?, List.findSome?_cons]
        cases own.entries.find? (·.key == k) <;> rfl
      · show own.axes.union parent.axes = own.axes.union (axesOfAll rest)
        rw [haxes]

/-- Where nothing is known yet, a bag is answered if all bags above it can be read. If the
keys of its lineage ascend, so do those of the answer, and under every key the answer has the
entry of the first bag of the lineage that has one; it varies along the axes of all of them. -/
theorem bag_of_lineage (r : Resources) (id : ResourceId) :
    ((∃ chain, r.Lineage id chain) ↔
      ∀ above, Relation.ReflTransGen r.Parent id above → ∃ own, r.ownBag above = .ok own) ∧
    ∀ chain, r.Lineage id chain → (∀ own ∈ chain, Ascends own.entries) →
      ∃ bag, (r.bag id []).1 = .ok bag ∧ Ascends bag.entries ∧
        (∀ k, bag.find? k = firstUnder? k chain) ∧ bag.axes = axesOfAll chain := by
  refine ⟨exists_lineage_iff, fun chain hchain hkeys => ?_⟩
  obtain ⟨bag, hflat, hascends, hfind, haxes⟩ := hchain.flat hkeys
  refine ⟨bag, (bag_spec (cacheOk_nil r) id).1.trans hflat, hascends, ?_, haxes⟩
  intro k
  rw [find?_eq_find?_entries hascends, hfind]

/-! ## A lineage below a cycle -/

/-- Three styles: the first one inherits from the second, and this one and the third inherit
from each other. -/
def belowCycle : Resources :=
  (Manager.fresh 0 [.ofVariants ResourceId.appPackage #[.orientation, .density, .locale]
    [(.default, [some (.style 0x7f010001 [0x01010000, 0x01010002]),
      some (.style 0x7f010002 [0x01010001, 0x01010002]),
      some (.style 0x7f010001 [0x01010003])])]] .default).resources

/-- One of these styles as it is written. -/
def styleOf (id parent : ResourceId) (axes : Axes) (names : List ResourceId) : OwnBag where
  id := id
  parent := parent
  axes := axes
  entries := names.map fun key => ⟨key, ⟨.decimal, 0⟩, id, 0⟩

/-- The first style has the entries of the second one where it has none, but nothing of the
third one. -/
theorem bag_of_lineage_belowCycle :
    (∀ above, Relation.ReflTransGen belowCycle.Parent 0x7f010000 above →
      ∃ own, belowCycle.ownBag above = .ok own) ∧
    ∃ bag, (belowCycle.bag 0x7f010000 []).1 = .ok bag ∧ Ascends bag.entries ∧
      bag.find? 0x01010001 = some ⟨0x01010001, ⟨.decimal, 0⟩, 0x7f010001, 0⟩ ∧
      bag.find? 0x01010002 = some ⟨0x01010002, ⟨.decimal, 0⟩, 0x7f010000, 0⟩ ∧
      bag.find? 0x01010003 = none ∧ bag.axes = Axes.orientation.union .density := by
  have hfirst : belowCycle.ownBag 0x7f010000 =
      .ok (styleOf 0x7f010000 0x7f010001 .orientation [0x01010000, 0x01010002]) := by rfl
  have hsecond : belowCycle.ownBag 0x7f010001 =
      .ok (styleOf 0x7f010001 0x7f010002 .density [0x01010001, 0x01010002]) := by rfl
  have hthird : belowCycle.ownBag 0x7f010002 =
      .ok (styleOf 0x7f010002 0x7f010001 .locale [0x01010003]) := by rfl
  have hup : belowCycle.Parent 0x7f010001 0x7f010002 := by rfl
  have hdown : belowCycle.Parent 0x7f010002 0x7f010001 := by rfl
  have hcycle : belowCycle.OnCycle 0x7f010001 := .tail (.single hup) hdown
  -- from the second style on the way up stays among the second and the third
  have hclosed : ∀ x p, x = 0x7f010001 ∨ x = 0x7f010002 → belowCycle.parent? x = some p →
      p = 0x7f010001 ∨ p = 0x7f010002 := by
    rintro x p (rfl | rfl) hp
    · exact Or.inr (Option.some.inj (hp.symm.trans hup))
    · exact Or.inl (Option.some.inj (hp.symm.trans hdown))
  have hoff : ¬ belowCycle.OnCycle 0x7f010000 := by
    intro hon
    have hstart : belowCycle.Parent 0x7f010000 0x7f010001 := by rfl
    have hself := hon.mem_of_closed hclosed (.single hstart) (Or.inl rfl)
    revert hself
    decide
  have hlineage := Lineage.heir hfirst (by decide) hoff (.last hsecond (Or.inr hcycle))
  have hkeys : ∀ own ∈ [styleOf 0x7f010000 0x7f010001 .orientation [0x01010000, 0x01010002],
      styleOf 0x7f010001 0x7f010002 .density [0x01010001, 0x01010002]], Ascends own.entries := by
    decide
  obtain ⟨bag, hbag, hascends, hfind, haxes⟩ :=
    (bag_of_lineage belowCycle 0x7f010000).2 _ hlineage hkeys
  refine ⟨(bag_of_lineage belowCycle 0x7f010000).1.mp ⟨_, hlineage⟩, bag, hbag, hascends, ?_, ?_,
    ?_, ?_⟩
  · rw [hfind]
    rfl
  · rw [hfind]
    rfl
  · rw [hfind]
    rfl
  · rw [haxes]
    rfl

end Resources

end AppResources
