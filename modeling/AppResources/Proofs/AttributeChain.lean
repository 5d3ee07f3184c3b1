import AppResources.Theme
import Mathlib.Data.List.Basic

/-!
# Attributes that stand for others

The slot of an attribute may hold another attribute, which is then looked up in its place. From
an attribute so a chain of attributes is reached, one after each step. It ends at an attribute
that stands for no other, or it comes back to itself and never ends. A lookup follows it for
twenty steps. What it answers is said here by the chain alone: by the attribute that is reached
and by the axes of all slots on the way.

## Main definitions

* `Theme.reached?`: the attribute that is reached after some steps.
* `Theme.axesAlong`: the axes of the slots on the way.

## Main results

* `reached?_add`: steps are made one after the other.
* `lookupFrom_of_end`, `lookupFrom_of_limit`: the answer where a chain ends in time, and where
  it goes on.
* `isSome_reached?_of_loop`: a chain that comes back to an attribute never ends.
* `followsAttributes`: what is said of a lookup altogether.
-/

namespace AppResources

namespace Theme

variable {t : Theme} {id a b : ResourceId} {s : ThemeSlot} {axes : Axes} {steps n m i j : Nat}

/-- The attribute that an attribute stands for, if its slot holds one. -/
def standsFor? (t : Theme) (id : ResourceId) : Option ResourceId :=
  (t.slots.find? id).bind fun s => if s.value.kind = .attribute then some s.value.data else none

/-- The attribute that is reached after some steps, if the chain does not end before. -/
def reached? (t : Theme) (id : ResourceId) : Nat → Option ResourceId
  | 0 => some id
  | n + 1 => (t.reached? id n).bind t.standsFor?

/-- Some axes with those of the slots that are passed up to a step, the last one included. -/
def axesAlong (t : Theme) (id : ResourceId) (n : Nat) (axes : Axes) : Axes :=
  ((List.range (n + 1)).filterMap (t.reached? id)).foldl
    (fun axes a => axes.union (t.slot a).axes) axes

/-! ## Steps -/

theorem slot_of_missing (h : t.slots.find? id = none) : t.slot id = {} := by
  rw [slot, ThemeSlots.slot, h, Option.getD_none]

theorem slot_of_find? (h : t.slots.find? id = some s) : t.slot id = s := by
  rw [slot, ThemeSlots.slot, h, Option.getD_some]

/-- A slot that is missing holds no attribute. -/
theorem standsFor?_eq (t : Theme) (id : ResourceId) :
    t.standsFor? id =
      if (t.slot id).value.kind = .attribute then some (t.slot id).value.data else none := by
  unfold standsFor?
  cases hs : t.slots.find? id with
  | none => rw [slot_of_missing hs, Option.bind_none, if_neg (by decide)]
  | some s => rw [slot_of_find? hs, Option.bind_some]

theorem kind_of_standsFor? (h : t.standsFor? id = some b) :
    (t.slot id).value.kind = .attribute ∧ (t.slot id).value.data = b := by
  rw [standsFor?_eq, Option.ite_none_right_eq_some] at h
  exact ⟨h.1, Option.some.inj h.2⟩

theorem kind_of_standsFor?_eq_none (h : t.standsFor? id = none) :
    (t.slot id).value.kind ≠ .attribute := by
  intro hkind
  rw [standsFor?_eq, if_pos hkind] at h
  cases h

/-- The first step leads to where the rest of the chain starts. -/
theorem reached?_succ (t : Theme) (id : ResourceId) (n : Nat) :
    t.reached? id (n + 1) = (t.standsFor? id).bind fun b => t.reached? b n := by
  induction n with
  | zero =>
      change (some id).bind t.standsFor? = (t.standsFor? id).bind some
      rw [Option.bind_some, Option.bind_fun_some]
  | succ n ih =>
      rw [reached?, ih, Option.bind_assoc]
      rfl

/-- Steps are made one after the other. -/
theorem reached?_add (t : Theme) (id : ResourceId) (m n : Nat) :
    t.reached? id (m + n) = (t.reached? id m).bind fun b => t.reached? b n := by
  induction n with
  | zero => exact Option.bind_fun_some _ |>.symm
  | succ n ih =>
      rw [← Nat.add_assoc, reached?, ih, Option.bind_assoc]
      rfl

/-- A chain has not ended before a step that it makes. -/
theorem isSome_reached?_of_le (hmn : m ≤ n) (h : (t.reached? id n).isSome = true) :
    (t.reached? id m).isSome = true := by
  obtain ⟨rest, rfl⟩ := Nat.exists_eq_add_of_le hmn
  rw [reached?_add] at h
  exact Option.isSome_of_isSome_bind h

/-- The first slot on the way, and the others. -/
theorem axesAlong_succ (h : t.standsFor? id = some b) (n : Nat) (axes : Axes) :
    t.axesAlong id (n + 1) axes = t.axesAlong b n (axes.union (t.slot id).axes) := by
  have hlater : (fun i => t.reached? id (i + 1)) = t.reached? b := by
    funext i
    rw [reached?_succ, h, Option.bind_some]
  unfold axesAlong
  rw [List.range_succ_eq_map, List.filterMap_cons_some (show t.reached? id 0 = some id from rfl),
    List.filterMap_map, List.foldl_cons, ← hlater]
  rfl

/-! ## The answer of a lookup -/

theorem lookupFrom_next (h : t.standsFor? id = some b) :
    t.lookupFrom (steps + 1) axes id = t.lookupFrom steps (axes.union (t.slot id).axes) b := by
  obtain ⟨hkind, hdata⟩ := kind_of_standsFor? h
  rw [lookupFrom, if_pos hkind, hdata]

/-- A chain that ends in time is followed to its end. -/
theorem lookupFrom_of_end (hn : n ≤ steps) (h : t.reached? id n = some a)
    (hend : t.standsFor? a = none) :
    t.lookupFrom steps axes id =
      if (t.slot a).value.isUndefined then .error (.notFound a)
      else .ok { t.slot a with axes := t.axesAlong id n axes } := by
  induction n generalizing steps id axes with
  | zero =>
      obtain rfl := Option.some.inj h
      have hkind := kind_of_standsFor?_eq_none hend
      cases steps <;> (rw [lookupFrom, if_neg hkind]; rfl)
  | succ n ih =>
      obtain ⟨steps, rfl⟩ := Nat.exists_eq_add_one_of_ne_zero (Nat.ne_zero_of_lt hn)
      -- the chain is cut where the lookup makes its first step
      rw [reached?_succ] at h
      obtain ⟨b, hb, hrest⟩ := Option.bind_eq_some_iff.mp h
      rw [lookupFrom_next hb, ih (Nat.le_of_succ_le_succ hn) hrest, axesAlong_succ hb]

/-- A chain that goes on behind the last step is given up there. -/
theorem lookupFrom_of_limit (h : t.reached? id steps = some a) (hnext : t.standsFor? a = some b) :
    t.lookupFrom steps axes id = .error (.tooManySteps a) := by
  induction steps generalizing id axes with
  | zero =>
      obtain rfl := Option.some.inj h
      rw [lookupFrom, if_pos (kind_of_standsFor? hnext).1]
  | succ steps ih =>
      rw [reached?_succ] at h
      obtain ⟨c, hc, hrest⟩ := Option.bind_eq_some_iff.mp h
      rw [lookupFrom_next hc, ih hrest]

/-! ## Loops -/

/-- A chain that comes back to an attribute goes on for ever. -/
theorem isSome_reached?_of_loop (hij : i < j) (hi : t.reached? id i = some a)
    (hj : t.reached? id j = some a) (n : Nat) : (t.reached? id n).isSome = true := by
  induction n using Nat.strongRecOn with
  | ind n ih =>
      by_cases hn : n ≤ j
      · exact isSome_reached?_of_le hn (by rw [hj]; rfl)
      · -- what is reached behind the loop was reached one turn before
        obtain ⟨rest, rfl⟩ := Nat.exists_eq_add_of_le (Nat.le_of_not_le hn)
        have hturn := ih (i + rest) (by omega)
        rw [reached?_add, hi] at hturn
        rw [reached?_add, hj]
        exact hturn

/-! ## Lookups altogether -/

/-- What is said of the lookup of an attribute. -/
structure FollowsAttributes (t : Theme) (id : ResourceId) : Prop where
  /-- A chain that ends within twenty steps at an attribute without a slot or without a value has
  no answer. -/
  missing : ∀ n ≤ 20, ∀ a, t.reached? id n = some a →
    (t.slots.find? a = none ∨ ∃ s, t.slots.find? a = some s ∧ s.value.isUndefined = true) →
      t.lookup id = .error (.notFound a)
  /-- A chain that ends within twenty steps at a value is answered with that value, where it comes
  from and the axes of all slots on the way. -/
  found : ∀ n ≤ 20, ∀ a s, t.reached? id n = some a → t.slots.find? a = some s →
    s.value.kind ≠ .attribute → s.value.isUndefined = false →
      t.lookup id = .ok ⟨s.cookie, t.axesAlong id n .none, s.value⟩
  /-- A chain that goes on behind the twentieth step is given up. -/
  limit : ∀ a b, t.reached? id 20 = some a → t.standsFor? a = some b →
    t.lookup id = .error (.tooManySteps a)
  /-- So is a chain that comes back to an attribute. -/
  loop : ∀ i j a, i < j → t.reached? id i = some a → t.reached? id j = some a →
    ∃ last next, t.reached? id 20 = some last ∧ t.standsFor? last = some next ∧
      t.lookup id = .error (.tooManySteps last)
  /-- There are no other chains. -/
  complete : (∃ n ≤ 20, ∃ a, t.reached? id n = some a ∧ t.standsFor? a = none) ∨
    ∃ a b, t.reached? id 20 = some a ∧ t.standsFor? a = some b

/-- A chain ends within some steps or goes on behind them. -/
theorem exists_end_or_next (t : Theme) (id : ResourceId) (steps : Nat) :
    (∃ n ≤ steps, ∃ a, t.reached? id n = some a ∧ t.standsFor? a = none) ∨
      ∃ a b, t.reached? id steps = some a ∧ t.standsFor? a = some b := by
  induction steps generalizing id with
  | zero =>
      cases hnext : t.standsFor? id with
      | none => exact .inl ⟨0, Nat.le_refl 0, id, rfl, hnext⟩
      | some b => exact .inr ⟨id, b, rfl, hnext⟩
  | succ steps ih =>
      cases hnext : t.standsFor? id with
      | none => exact .inl ⟨0, Nat.zero_le _, id, rfl, hnext⟩
      | some c =>
          have hstep : ∀ n, t.reached? id (n + 1) = t.reached? c n := fun n => by
            rw [reached?_succ, hnext, Option.bind_some]
          rcases ih c with ⟨n, hn, a, ha, hend⟩ | ⟨a, b, ha, hb⟩
          · exact .inl ⟨n + 1, Nat.succ_le_succ hn, a, (hstep n).trans ha, hend⟩
          · exact .inr ⟨a, b, (hstep steps).trans ha, hb⟩

theorem lookup_eq (t : Theme) (id : ResourceId) : t.lookup id = t.lookupFrom 20 .none id := rfl

/-- Every lookup follows the chain of its attribute as is said. -/
theorem followsAttributes (t : Theme) (id : ResourceId) : t.FollowsAttributes id where
  missing n hn a ha hnone := by
    have hundefined : (t.slot a).value.isUndefined = true := by
      rcases hnone with hnone | ⟨s, hs, hundefined⟩
      · rw [slot_of_missing hnone]
        rfl
      · rw [slot_of_find? hs]
        exact hundefined
    have hend : t.standsFor? a = none := by
      rw [standsFor?_eq, if_neg]
      intro hkind
      rw [Value.isUndefined, hkind] at hundefined
      cases hundefined
    rw [lookup_eq, lookupFrom_of_end hn ha hend, if_pos hundefined]
  found n hn a s ha hs hkind hdefined := by
    have hslot := slot_of_find? hs
    have hend : t.standsFor? a = none := by
      rw [standsFor?_eq, hslot, if_neg hkind]
    rw [lookup_eq, lookupFrom_of_end hn ha hend, hslot, hdefined, if_neg (by decide)]
  limit a b ha hb := lookupFrom_of_limit ha hb
  loop i j a hij hi hj := by
    obtain ⟨next, hnext⟩ := Option.isSome_iff_exists.mp (isSome_reached?_of_loop hij hi hj 21)
    obtain ⟨last, hlast, hstands⟩ := Option.bind_eq_some_iff.mp hnext
    exact ⟨last, next, hlast, hstands, lookupFrom_of_limit hlast hstands⟩
  complete := t.exists_end_or_next id 20

/-- A theme in which some attributes in a row each stand for the next one, and the last of them
for a number. -/
def ladder (n : Nat) : Theme where
  owner := 0
  slots := (List.range n).foldl
    (fun slots i =>
      store .none false
        ⟨0x01010000 + i.toUInt32, ⟨.attribute, 0x01010001 + i.toUInt32⟩, 0x7f010000, 0⟩ slots)
    (store .none false ⟨0x01010000 + n.toUInt32, ⟨.decimal, 5⟩, 0x7f010000, 0⟩ ByteTable.empty)

example : (ladder 20).lookup 0x01010000 = .ok ⟨some 0, .none, ⟨.decimal, 5⟩⟩ := by decide +kernel

example : (ladder 21).lookup 0x01010000 = .error (.tooManySteps 0x01010014) := by decide +kernel

end Theme

end AppResources
