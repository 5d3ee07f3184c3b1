import AppResources.Bag.Inherit
import Mathlib.Data.Fintype.EquivFin

/-!
# Flat bags

What a bag is with all it inherits, said by recursion over its parents and without any
cache: a bag without a parent and a bag on a cycle of parents have their own entries only,
and any other bag is merged over its flat parent. The recursion ends because no chain of
parents that stays off the cycles comes back to an id, and there are finitely many ids.

## Main definitions

* `Resources.OnCycle`: whether a bag is its own ancestor.
* `Resources.flat`: a bag with all it inherits.

## Main results

* `OnCycle.mem_of_closed`: a set of ids that contains their parents contains every cycle
  from which it is reached.
* `flat_of_error`, `flat_of_alone`, `flat_of_parent`: the three kinds of bags.
* `flat_induction`: induction over what a bag inherits from.
-/

namespace AppResources

namespace Resources

/-- The parent that a bag names, if there is the bag and it names one. -/
def parent? (r : Resources) (id : ResourceId) : Option ResourceId :=
  match r.ownBag id with
  | .error _ => none
  | .ok own => if own.parent = 0 then none else some own.parent

/-- The relation between a bag and its parent. -/
def Parent (r : Resources) (id above : ResourceId) : Prop := r.parent? id = some above

/-- Whether the parents of a bag lead back to it. -/
def OnCycle (r : Resources) (id : ResourceId) : Prop := Relation.TransGen r.Parent id id

/-- The relation between a parent and the bags that inherit from it. -/
def InheritedBy (r : Resources) (above id : ResourceId) : Prop :=
  r.Parent id above ∧ ¬ r.OnCycle id

variable {r : Resources} {id above : ResourceId} {own : OwnBag} {e : LookupError}

/-! ## Parents -/

theorem parent?_of_error (h : r.ownBag id = .error e) : r.parent? id = none := by
  rw [parent?, h]

theorem parent?_of_root (h : r.ownBag id = .ok own) (hroot : own.parent = 0) :
    r.parent? id = none := by
  rw [parent?, h]
  exact if_pos hroot

theorem parent?_of_ok (h : r.ownBag id = .ok own) (hparent : own.parent ≠ 0) :
    r.parent? id = some own.parent := by
  rw [parent?, h]
  exact if_neg hparent

/-- A bag that was read carries the id under which it was read. -/
theorem id_of_ownBag (h : r.ownBag id = .ok own) : own.id = id := by
  unfold ownBag at h
  split at h
  · cases h
  · split at h
    · cases h
    · split at h
      · cases h
      · cases h
        rfl

/-- What an item becomes has its key and its value at run time. -/
theorem of_runtimeItem {t : LibraryTable} {style : ResourceId} {cookie : Nat} {item : BagItem}
    {e : BagEntry} (h : runtimeItem t style cookie item = .ok e) :
    runtimeKey t item.name = .ok e.key ∧ t.runtimeValue? item.value = some e.value := by
  unfold runtimeItem at h
  split at h
  · cases h
  · next key hkey =>
      split at h
      · next v hvalue =>
          cases h
          exact ⟨hkey, hvalue⟩
      · cases h

/-- What a list is read to has one element for each of its elements. -/
theorem forall₂_of_mapM {α β ε : Type} {f : α → Except ε β} {xs : List α} {ys : List β}
    (h : xs.mapM f = .ok ys) : List.Forall₂ (fun x y => f x = .ok y) xs ys := by
  induction xs generalizing ys with
  | nil =>
      cases h
      exact .nil
  | cons x xs ih =>
      rw [List.mapM_cons] at h
      cases hx : f x with
      | error e =>
          rw [hx] at h
          cases h
      | ok y =>
          cases hxs : xs.mapM f with
          | error e =>
              rw [hx, hxs] at h
              cases h
          | ok rest =>
              rw [hx, hxs] at h
              obtain rfl := Except.ok.inj h
              exact .cons hx (ih hxs)

/-- A bag that was read is the bag that was found, with run-time ids. -/
theorem exists_of_ownBag (h : r.ownBag id = .ok own) :
    ∃ s key flags parent items entries, r.find id 0 = .ok s ∧
      s.entry = .bag key flags parent items ∧
        items.mapM (runtimeItem s.libraries id s.cookie) = .ok entries ∧
          own = ⟨id, runtimeParent s.libraries parent, s.axes, entries⟩ := by
  unfold ownBag at h
  split at h
  · cases h
  · next s hfind =>
      split at h
      · cases h
      · next key flags parent items hentry =>
          split at h
          · cases h
          · next entries hitems =>
              cases h
              exact ⟨s, key, flags, parent, items, entries, hfind, hentry, hitems, rfl⟩

/-- Ancestors of a member of a set that contains its members' parents are in the set. -/
theorem mem_of_closed {P : ResourceId → Prop}
    (hP : ∀ x p, P x → r.parent? x = some p → P p) (h : Relation.TransGen r.Parent id above)
    (hid : P id) : P above := by
  induction h with
  | single h => exact hP _ _ hid h
  | tail _ h ih => exact hP _ _ ih h

/-- The first step of a way up. -/
theorem transGen_head (h : Relation.TransGen r.Parent id above) :
    ∃ next, r.Parent id next ∧ (next = above ∨ Relation.TransGen r.Parent next above) := by
  induction h with
  | single h => exact ⟨_, h, Or.inl rfl⟩
  | tail _ h ih =>
      obtain ⟨next, hnext, heq | hup⟩ := ih
      · exact ⟨next, hnext, Or.inr (.single (heq ▸ h))⟩
      · exact ⟨next, hnext, Or.inr (hup.tail h)⟩

/-- From every ancestor of a bag on a cycle the cycle leads back to the bag. -/
theorem OnCycle.back (h : r.OnCycle id) (hup : Relation.TransGen r.Parent id above) :
    above = id ∨ Relation.TransGen r.Parent above id := by
  -- a bag has one parent only, so the way up is the way round the cycle
  have hstep : ∀ {x y}, Relation.TransGen r.Parent x id → r.Parent x y →
      y = id ∨ Relation.TransGen r.Parent y id := by
    intro x y hx hxy
    obtain ⟨next, hnext, hback⟩ := transGen_head hx
    obtain rfl : y = next := Option.some.inj (hxy.symm.trans hnext)
    exact hback
  induction hup with
  | single hup => exact hstep h hup
  | tail _ hup ih =>
      rcases ih with rfl | ih
      · exact hstep h hup
      · exact hstep ih hup

/-- A cycle from which a set is reached that contains its members' parents lies in it. -/
theorem OnCycle.mem_of_closed {P : ResourceId → Prop}
    (hP : ∀ x p, P x → r.parent? x = some p → P p) (h : r.OnCycle id)
    (hup : Relation.TransGen r.Parent id above) (habove : P above) : P id := by
  rcases h.back hup with rfl | hback
  · exact habove
  · exact Resources.mem_of_closed hP hback habove

theorem transGen_of_inheritedBy (h : Relation.TransGen r.InheritedBy above id) :
    Relation.TransGen r.Parent id above ∧ ¬ r.OnCycle id := by
  induction h with
  | single h => exact ⟨.single h.1, h.2⟩
  | tail _ h ih => exact ⟨Relation.TransGen.trans (.single h.1) ih.1, h.2⟩

/-- The parents that bags inherit from never lead back, so the recursion over them ends. -/
theorem wellFounded_inheritedBy (r : Resources) : WellFounded r.InheritedBy := by
  have : Finite ResourceId := Finite.of_injective UInt32.toFin fun _ _ => UInt32.toFin_inj.mp
  have : Std.Irrefl (Relation.TransGen r.InheritedBy) := ⟨fun _ h =>
    (transGen_of_inheritedBy h).2 (transGen_of_inheritedBy h).1⟩
  have : IsTrans ResourceId (Relation.TransGen r.InheritedBy) := ⟨fun _ _ _ => .trans⟩
  exact Subrelation.wf .single
    (Finite.wellFounded_of_trans_of_irrefl (Relation.TransGen r.InheritedBy))

/-! ## Flat bags -/

open Classical in
/-- A bag with all it inherits. -/
noncomputable def flat (r : Resources) (id : ResourceId) : Except LookupError Bag :=
  match _hown : r.ownBag id with
  | .error e => .error e
  | .ok own =>
    if _halone : own.parent = 0 ∨ r.OnCycle id then .ok ⟨own.axes, own.entries⟩
    else
      match flat r own.parent with
      | .error e => .error e
      | .ok parent => .ok ⟨own.axes.union parent.axes, Bag.merge own.entries parent.entries⟩
termination_by r.wellFounded_inheritedBy.wrap id
decreasing_by
  rw [not_or] at _halone
  exact ⟨parent?_of_ok _hown _halone.1, _halone.2⟩

theorem flat_of_error (h : r.ownBag id = .error e) : r.flat id = .error e := by
  rw [flat]
  split
  · next e' he => rw [Except.error.inj (he.symm.trans h)]
  · next own hown => cases hown.symm.trans h

/-- A bag without a parent, or on a cycle of parents. -/
theorem flat_of_alone (h : r.ownBag id = .ok own) (halone : own.parent = 0 ∨ r.OnCycle id) :
    r.flat id = .ok own.bag := by
  rw [flat]
  split
  · next e' he => cases he.symm.trans h
  · next own' hown =>
      obtain rfl := Except.ok.inj (hown.symm.trans h)
      rw [dif_pos halone]
      rfl

/-- A bag that inherits. -/
theorem flat_of_parent (h : r.ownBag id = .ok own) (hparent : own.parent ≠ 0)
    (hcycle : ¬ r.OnCycle id) : r.flat id = (r.flat own.parent).map own.inherit := by
  rw [flat]
  split
  · next e' he => cases he.symm.trans h
  · next own' hown =>
      obtain rfl := Except.ok.inj (hown.symm.trans h)
      rw [dif_neg (not_or.mpr ⟨hparent, hcycle⟩)]
      cases r.flat own'.parent <;> rfl

/-- Induction over the parents that a flat bag inherits from. -/
theorem flat_induction {motive : ∀ (id : ResourceId) (bag : Bag), r.flat id = .ok bag → Prop}
    (alone : ∀ id own (hown : r.ownBag id = .ok own) (halone : own.parent = 0 ∨ r.OnCycle id),
      motive id own.bag (flat_of_alone hown halone))
    (inherit : ∀ id own parent (hflat : r.flat id = .ok (own.inherit parent)),
      r.ownBag id = .ok own → r.InheritedBy own.parent id →
        ∀ hparent : r.flat own.parent = .ok parent, motive own.parent parent hparent →
          motive id (own.inherit parent) hflat)
    {id : ResourceId} {bag : Bag} (h : r.flat id = .ok bag) : motive id bag h := by
  induction id using r.wellFounded_inheritedBy.induction generalizing bag with
  | _ id ih =>
      cases hown : r.ownBag id with
      | error e => cases (flat_of_error hown).symm.trans h
      | ok own =>
          by_cases halone : own.parent = 0 ∨ r.OnCycle id
          · obtain rfl := Except.ok.inj ((flat_of_alone hown halone).symm.trans h)
            exact alone id own hown halone
          · obtain ⟨hroot, hcycle⟩ := not_or.mp halone
            have hinherited : r.InheritedBy own.parent id := ⟨parent?_of_ok hown hroot, hcycle⟩
            have hmerged := (flat_of_parent hown hroot hcycle).symm.trans h
            cases hparent : r.flat own.parent with
            | error e =>
                rw [hparent] at hmerged
                cases hmerged
            | ok parent =>
                rw [hparent] at hmerged
                obtain rfl := Except.ok.inj hmerged
                exact inherit id own parent h hown hinherited hparent
                  (ih own.parent hinherited hparent)

end Resources

end AppResources
