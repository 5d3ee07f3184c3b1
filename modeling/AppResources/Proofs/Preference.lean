import AppResources.Config.Ranking

/-!
# Preferences as orders

An axis of the ranking gives for two things a preference, or none. This module says
when such an axis is an order: exchanging the two things turns the preference round,
things without a preference are alike for every third thing, and no three things are
each preferred to the next in a circle.

The first two laws are the fields of `Coherent`. They are kept apart from the third
one because an axis may have circles and still be coherent; a sequence of coherent
axes then has exactly the circles of its members (`circular_or_iff`).

## Main results

* `ranks_compare`: comparing keys is an order.
* `Coherent.or`, `Ranks.or`: the laws hold of a sequence if they hold of its members.
* `circular_or_iff`: where the circles of a sequence come from.
* `trans_iff_not_circular`: circles are the only way to lose transitivity.
-/

namespace AppResources

namespace Preference

variable {α : Type} {S : α → Prop} {p q : α → α → Preference} {a b c : α}

/-- An axis that does not depend on the order of its arguments and for which things without
a preference are alike, as far as things in `S` are concerned. -/
structure Coherent (S : α → Prop) (p : α → α → Preference) : Prop where
  /-- Exchanged arguments turn the preference round. -/
  swap : ∀ a b, S a → S b → p b a = (p a b).map not
  /-- Without a preference either one stands for the other. -/
  tie : ∀ a b c, S a → S b → S c → p a b = none → p a c = p b c

/-- Three things each of which is preferred to the next, and the last to the first. -/
def Circular (p : α → α → Preference) (a b c : α) : Prop :=
  p a b = some true ∧ p b c = some true ∧ p c a = some true

/-- A coherent axis without circles, that is, a strict weak order on `S`. -/
structure Ranks (S : α → Prop) (p : α → α → Preference) : Prop extends Coherent S p where
  /-- No three things are preferred in a circle. -/
  acyclic : ∀ a b c, S a → S b → S c → ¬ Circular p a b c

theorem Circular.rotate (h : Circular p a b c) : Circular p b c a :=
  ⟨h.2.1, h.2.2, h.1⟩

/-! ## Coherent axes -/

/-- A preference one way excludes the same one the other way. -/
theorem Coherent.asymm (hp : Coherent S p) (ha : S a) (hb : S b) (h : p a b = some true) :
    p b a = some false := by
  rw [hp.swap a b ha hb, h]
  rfl

theorem Coherent.irrefl (hp : Coherent S p) (ha : S a) : p a a = none := by
  have h := hp.swap a a ha ha
  cases hpa : p a a with
  | none => rfl
  | some x =>
      rw [hpa] at h
      cases x <;> simp at h

theorem Coherent.tie_symm (hp : Coherent S p) (ha : S a) (hb : S b) (h : p a b = none) :
    p b a = none := by
  rw [hp.swap a b ha hb, h]
  rfl

/-- A thing that is alike to the second argument stands for it as well. -/
theorem Coherent.tie_right (hp : Coherent S p) (ha : S a) (hb : S b) (hc : S c)
    (h : p b c = none) : p a b = p a c := by
  rw [hp.swap b a hb ha, hp.swap c a hc ha, hp.tie b c a hb hc ha h]

/-- Along two preferences the third one has to follow or to close a circle. -/
theorem Coherent.trans_iff_not_circular (hp : Coherent S p) (ha : S a) (hb : S b) (hc : S c)
    (hab : p a b = some true) (hbc : p b c = some true) :
    p a c = some true ↔ ¬ Circular p a b c := by
  have hswap := hp.swap a c ha hc
  cases hac : p a c with
  | none =>
      -- `a` and `c` alike would make `b` both better and worse than `a`
      have hcb := hp.tie a c b ha hc hb hac
      rw [hab, hp.asymm hb hc hbc] at hcb
      simp at hcb
  | some x => cases x <;> simp_all [Circular]

/-- The law of a strict order is lost exactly in circles. -/
theorem trans_iff_not_circular (hp : Coherent S p) (ha : S a) (hb : S b) (hc : S c) :
    (p a b = some true → p b c = some true → p a c = some true) ↔ ¬ Circular p a b c := by
  constructor
  · intro h hcircular
    exact (hp.trans_iff_not_circular ha hb hc hcircular.1 hcircular.2.1).mp
      (h hcircular.1 hcircular.2.1) hcircular
  · intro h hab hbc
    exact (hp.trans_iff_not_circular ha hb hc hab hbc).mpr h

/-- Two axes that agree on `S` share their laws. -/
theorem Coherent.congr (hp : Coherent S p) (h : ∀ a b, S a → S b → q a b = p a b) :
    Coherent S q where
  swap a b ha hb := by rw [h b a hb ha, h a b ha hb, hp.swap a b ha hb]
  tie a b c ha hb hc hab := by
    rw [h a c ha hc, h b c hb hc]
    exact hp.tie a b c ha hb hc (by rw [← h a b ha hb, hab])

theorem Ranks.congr (hp : Ranks S p) (h : ∀ a b, S a → S b → q a b = p a b) : Ranks S q where
  toCoherent := hp.toCoherent.congr h
  acyclic a b c ha hb hc := by
    rw [Circular, h a b ha hb, h b c hb hc, h c a hc ha]
    exact hp.acyclic a b c ha hb hc

/-- An axis may look at a part of the things only. -/
theorem Coherent.comap {β : Type} {T : β → Prop} (hp : Coherent S p) (f : β → α)
    (hf : ∀ x, T x → S (f x)) : Coherent T fun x y => p (f x) (f y) where
  swap x y hx hy := hp.swap _ _ (hf x hx) (hf y hy)
  tie x y z hx hy hz h := hp.tie _ _ _ (hf x hx) (hf y hy) (hf z hz) h

theorem Ranks.comap {β : Type} {T : β → Prop} (hp : Ranks S p) (f : β → α)
    (hf : ∀ x, T x → S (f x)) : Ranks T fun x y => p (f x) (f y) where
  toCoherent := hp.toCoherent.comap f hf
  acyclic x y z hx hy hz h := hp.acyclic _ _ _ (hf x hx) (hf y hy) (hf z hz) h

/-- An order may be read the other way round. -/
theorem Ranks.flip (hp : Ranks S p) : Ranks S fun a b => p b a where
  swap a b ha hb := hp.swap b a hb ha
  tie _ _ _ ha hb hc h := (hp.tie_right hc hb ha h).symm
  acyclic a b c ha hb hc h := hp.acyclic c b a hc hb ha ⟨h.2.1, h.1, h.2.2⟩

/-- Along two preferences an order goes on. -/
theorem Ranks.trans (hp : Ranks S p) (ha : S a) (hb : S b) (hc : S c) (hab : p a b = some true)
    (hbc : p b c = some true) : p a c = some true :=
  (trans_iff_not_circular hp.toCoherent ha hb hc).mpr (hp.acyclic a b c ha hb hc) hab hbc

/-! ## Comparing keys -/

/-- The preference for the greater one. -/
def ofOrdering : Ordering → Preference
  | .gt => some true
  | .lt => some false
  | .eq => none

@[simp] theorem ofOrdering_eq_none {o : Ordering} : ofOrdering o = none ↔ o = .eq := by
  cases o <;> simp [ofOrdering]

@[simp] theorem ofOrdering_eq_true {o : Ordering} : ofOrdering o = some true ↔ o = .gt := by
  cases o <;> simp [ofOrdering]

theorem ofOrdering_inj {o o' : Ordering} (h : ofOrdering o = ofOrdering o') : o = o' := by
  cases o <;> cases o' <;> first | rfl | cases h

theorem ofOrdering_swap (o : Ordering) : ofOrdering o.swap = (ofOrdering o).map not := by
  cases o <;> rfl

theorem ofOrdering_then (o o' : Ordering) :
    ofOrdering (o.then o') = (ofOrdering o).or (ofOrdering o') := by
  cases o <;> rfl

/-- Comparing a key is an order, whatever the key is. -/
theorem ranks_compare {β : Type} [Ord β] [Std.TransOrd β] (key : α → β) :
    Ranks S fun a b => ofOrdering (compare (key a) (key b)) where
  swap a b _ _ := by
    rw [Std.OrientedOrd.eq_swap (a := key b) (b := key a), ofOrdering_swap]
  tie a b c _ _ _ h := by
    rw [ofOrdering_eq_none] at h
    rw [Std.TransCmp.congr_left h]
  acyclic a b c _ _ _ := by
    rintro ⟨hab, hbc, hca⟩
    simp only [ofOrdering_eq_true] at hab hbc hca
    have hac := Std.TransCmp.gt_trans hab hbc
    rw [Std.OrientedOrd.eq_swap, hca] at hac
    simp at hac

/-- So is the preference for the smaller key. -/
theorem ranks_compare_reverse {β : Type} [Ord β] [Std.TransOrd β] (key : α → β) :
    Ranks S fun a b => ofOrdering (compare (key b) (key a)) :=
  (ranks_compare key).flip

theorem greater_eq_compare (a b : Nat) : greater a b = ofOrdering (compare a b) := by
  unfold greater
  rcases Nat.lt_trichotomy a b with h | h | h
  · rw [Nat.compare_eq_lt.mpr h, if_neg (by omega)]
    simp [ofOrdering, Nat.le_of_lt h]
  · rw [Nat.compare_eq_eq.mpr h, if_pos h]
    rfl
  · rw [Nat.compare_eq_gt.mpr h, if_neg (by omega)]
    simp [ofOrdering, h]

theorem smaller_eq_compare (a b : Int) : smaller a b = ofOrdering (compare b a) := by
  unfold smaller
  rcases Int.lt_trichotomy a b with h | h | h
  · rw [Std.compare_eq_gt.mpr h, if_neg (by omega)]
    simp [ofOrdering, h]
  · rw [Std.compare_eq_iff_eq.mpr h.symm, if_pos h]
    rfl
  · rw [Std.compare_eq_lt.mpr h, if_neg (by omega)]
    simp [ofOrdering, Int.le_of_lt h]

theorem ranks_greater (key : α → Nat) : Ranks S fun a b => greater (key a) (key b) :=
  (ranks_compare key).congr fun _ _ _ _ => greater_eq_compare _ _

theorem ranks_smaller (key : α → Int) : Ranks S fun a b => smaller (key a) (key b) :=
  (ranks_compare_reverse key).congr fun _ _ _ _ => smaller_eq_compare _ _

/-- The preference for what has a property. -/
def having (x y : Bool) : Preference :=
  if x = y then none else some x

theorem having_eq_greater (x y : Bool) : having x y = greater x.toNat y.toNat := by
  cases x <;> cases y <;> rfl

theorem ranks_having (has : α → Bool) : Ranks S fun a b => having (has a) (has b) :=
  (ranks_greater fun a => (has a).toNat).congr fun _ _ _ _ => having_eq_greater _ _

/-! ## Sequences of axes -/

theorem ranks_none : Ranks S fun _ _ => none where
  swap _ _ _ _ := rfl
  tie _ _ _ _ _ _ _ := rfl
  acyclic _ _ _ _ _ _ h := by simp [Circular] at h

/-- An axis that is out of use under some condition is an order all the same. -/
theorem ranks_unless (P : Prop) [Decidable P] (hp : Ranks S p) :
    Ranks S fun a b => if P then none else p a b := by
  by_cases hP : P
  · exact ranks_none.congr fun _ _ _ _ => if_pos hP
  · exact hp.congr fun _ _ _ _ => if_neg hP

/-- An axis that leaves the choice to the next one stays coherent. -/
theorem Coherent.or (hp : Coherent S p) (hq : Coherent S q) :
    Coherent S fun a b => (p a b).or (q a b) where
  swap a b ha hb := by
    rw [hp.swap a b ha hb, hq.swap a b ha hb]
    cases p a b <;> rfl
  tie a b c ha hb hc h := by
    rw [Option.or_eq_none_iff] at h
    rw [hp.tie a b c ha hb hc h.1, hq.tie a b c ha hb hc h.2]

/-- The first axis has to be silent all round a circle of which it does not decide every
part: where it decides one part, it decides the others. -/
theorem circular_or_iff (hp : Coherent S p) (ha : S a) (hb : S b) (hc : S c) :
    Circular (fun a b => (p a b).or (q a b)) a b c ↔
      Circular p a b c ∨ (p a b = none ∧ p b c = none ∧ Circular q a b c) := by
  constructor
  · rintro ⟨hab, hbc, hca⟩
    cases h : p a b with
    | some x =>
        left
        obtain rfl : x = true := by simpa [h] using hab
        have hba := hp.asymm ha hb h
        refine ⟨h, ?_, ?_⟩
        · cases h' : p b c with
          | some y => simpa [h'] using hbc
          | none =>
              rw [hp.tie b c a hb hc ha h'] at hba
              simp [hba] at hca
        · cases h' : p c a with
          | some y => simpa [h'] using hca
          | none =>
              have hcb := hp.tie c a b hc ha hb h'
              rw [h] at hcb
              simp [hp.asymm hc hb hcb] at hbc
    | none =>
        right
        have hac := hp.tie a b c ha hb hc h
        cases h' : p b c with
        | some y =>
            obtain rfl : y = true := by simpa [h'] using hbc
            rw [h'] at hac
            simp [hp.asymm ha hc hac] at hca
        | none =>
            rw [h'] at hac
            refine ⟨rfl, rfl, ?_, ?_, ?_⟩
            · simpa [h] using hab
            · simpa [h'] using hbc
            · simpa [hp.tie_symm ha hc hac] using hca
  · rintro (⟨hab, hbc, hca⟩ | ⟨hab, hbc, h⟩)
    · simp [Circular, hab, hbc, hca]
    · have hca := hp.tie_symm ha hc ((hp.tie a b c ha hb hc hab).trans hbc)
      simpa [Circular, hab, hbc, hca] using h

theorem Ranks.or (hp : Ranks S p) (hq : Ranks S q) :
    Ranks S fun a b => (p a b).or (q a b) where
  toCoherent := hp.toCoherent.or hq.toCoherent
  acyclic a b c ha hb hc h := by
    rcases (circular_or_iff hp.toCoherent ha hb hc).mp h with h | ⟨_, _, h⟩
    · exact hp.acyclic a b c ha hb hc h
    · exact hq.acyclic a b c ha hb hc h

end Preference

namespace Config

open Preference

variable {S : Config → Prop} {axes : List (Config → Config → Config → Preference)}
  {axis : Config → Config → Config → Preference} {device : Config}

theorem firstPreference_cons (a b : Config) :
    firstPreference (axis :: axes) device a b =
      (axis device a b).or (firstPreference axes device a b) := by
  unfold firstPreference
  rw [List.findSome?_cons]
  cases axis device a b <;> rfl

/-- Axes that say the same in turn have the same first preference. -/
theorem firstPreference_congr {device' a b a' b' : Config}
    (h : ∀ axis ∈ axes, axis device a b = axis device' a' b') :
    firstPreference axes device a b = firstPreference axes device' a' b' := by
  induction axes with
  | nil => rfl
  | cons axis axes ih =>
      rw [List.forall_mem_cons] at h
      rw [firstPreference_cons, firstPreference_cons, h.1, ih h.2]

/-- A sequence of coherent axes is coherent. -/
theorem firstPreference_coherent (h : ∀ axis ∈ axes, Coherent S (axis device)) :
    Coherent S (firstPreference axes device) := by
  induction axes with
  | nil => exact ranks_none.toCoherent
  | cons axis axes ih =>
      rw [List.forall_mem_cons] at h
      exact (h.1.or (ih h.2)).congr fun a b _ _ => firstPreference_cons a b

/-- A sequence of orders is an order. -/
theorem firstPreference_ranks (h : ∀ axis ∈ axes, Ranks S (axis device)) :
    Ranks S (firstPreference axes device) := by
  induction axes with
  | nil => exact ranks_none
  | cons axis axes ih =>
      rw [List.forall_mem_cons] at h
      exact (h.1.or (ih h.2)).congr fun a b _ _ => firstPreference_cons a b

/-- Where the circles of a sequence come from: from its first axis, or from the rest where
the first axis is silent. -/
theorem firstPreference_circular_cons_iff {a b c : Config} (h : Coherent S (axis device))
    (ha : S a) (hb : S b) (hc : S c) :
    Circular (firstPreference (axis :: axes) device) a b c ↔
      Circular (axis device) a b c ∨
        (axis device a b = none ∧ axis device b c = none ∧
          Circular (firstPreference axes device) a b c) := by
  rw [← circular_or_iff h ha hb hc]
  simp only [Circular, firstPreference_cons]

end Config

end AppResources
