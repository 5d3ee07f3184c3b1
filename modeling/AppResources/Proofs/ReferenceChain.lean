import AppResources.Resources.Reference

/-!
# Chains of references

A chain of references is followed by one lookup after the other, twenty at most. It ends where a
value refers to nothing else, or where a lookup answers with the id that was looked up, as it
does for a bag. From such an end the chain ends there again.

How many lookups are made is no part of an answer. So the walk is also written for lookups that
have effects (`followWith`): with plain lookups it is the walk itself, and with lookups that are
logged it gives the same answer and the log.

## Main definitions

* `Resources.followLogged`: the end of a chain, and the lookups on the way to it.
* `Resources.Trail`: the steps from a value to another one.

## Main results

* `run_followWith_pure`, `run_followWith_logged`: the answer of a walk, and the log.
* `trail_of_followFor`: a chain that ends is a trail of lookups, all of which found something.
* `followFor_eq_limit_iff`: when a chain is too long.
* `followsChain`: what is said of a chain altogether.
-/

namespace AppResources

/-- The value behind a reference, with the axes of the way to it. -/
def Resolved.reach (s next : Resolved) : Resolved :=
  { next with axes := s.axes.union next.axes, origin := s.value.data }

theorem Axes.union_union_self (a b : Axes) : (a.union b).union b = a.union b := by
  simp only [union, UInt32.or_assoc, UInt32.or_self]

namespace Resources

variable {r : Resources} {s t u : Resolved} {e : LookupError} {n : Nat} {id : ResourceId}

/-! ## One step -/

section Step

variable {next : Resolved}

theorem followFor_still (n : Nat) (h : s.value.isLiveReference = false) :
    r.followFor n s = .ok s := by
  cases n <;> simp [followFor, h]

theorem followFor_limit (h : s.value.isLiveReference = true) :
    r.followFor 0 s = .error ⟨s, .tooManySteps s.value.data⟩ := by
  simp [followFor, h]

theorem followFor_lost (n : Nat) (h : s.value.isLiveReference = true)
    (hget : r.get s.value.data true 0 = .error e) :
    r.followFor (n + 1) s = .error ⟨{ s with origin := s.value.data }, e⟩ := by
  simp [followFor, h, hget]

theorem followFor_own (n : Nat) (h : s.value.isLiveReference = true)
    (hget : r.get s.value.data true 0 = .ok next) (hown : next.value.data = s.value.data) :
    r.followFor (n + 1) s = .ok (s.reach next) := by
  simp [followFor, h, hget, hown, Resolved.reach]

theorem followFor_next (n : Nat) (h : s.value.isLiveReference = true)
    (hget : r.get s.value.data true 0 = .ok next) (hother : next.value.data ≠ s.value.data) :
    r.followFor (n + 1) s = r.followFor n (s.reach next) := by
  simp [followFor, h, hget, hother, Resolved.reach]

end Step

/-- Induction over the steps of a walk. -/
theorem followFor_induction (r : Resources) {motive : Nat → Resolved → Prop}
    (still : ∀ n s, s.value.isLiveReference = false → motive n s)
    (limit : ∀ s, s.value.isLiveReference = true → motive 0 s)
    (lost : ∀ n s e, s.value.isLiveReference = true → r.get s.value.data true 0 = .error e →
      motive (n + 1) s)
    (own : ∀ n s next, s.value.isLiveReference = true → r.get s.value.data true 0 = .ok next →
      next.value.data = s.value.data → motive (n + 1) s)
    (next : ∀ n s next, s.value.isLiveReference = true →
      r.get s.value.data true 0 = .ok next → next.value.data ≠ s.value.data →
      motive n (s.reach next) → motive (n + 1) s)
    (n : Nat) (s : Resolved) : motive n s := by
  induction n generalizing s with
  | zero =>
      cases hlive : s.value.isLiveReference with
      | false => exact still 0 s hlive
      | true => exact limit s hlive
  | succ n ih =>
      cases hlive : s.value.isLiveReference with
      | false => exact still (n + 1) s hlive
      | true =>
          cases hget : r.get s.value.data true 0 with
          | error e => exact lost n s e hlive hget
          | ok x =>
              by_cases hown : x.value.data = s.value.data
              · exact own n s x hlive hget hown
              · exact next n s x hlive hget hown (ih _)

/-! ## The lookups of a walk -/

/-- Lookups of values and what they found, in order. -/
abbrev LookupLog := List (ResourceId × Except LookupError Resolved)

/-- Follows references for a number of steps by lookups that may have effects. -/
def followWith {m : Type → Type} [Monad m]
    (get : ResourceId → m (Except LookupError Resolved)) :
    Nat → Resolved → m (Except Unresolved Resolved)
  | 0, s =>
    pure (if s.value.isLiveReference then .error ⟨s, .tooManySteps s.value.data⟩ else .ok s)
  | steps + 1, s =>
    if s.value.isLiveReference then do
      match ← get s.value.data with
      | .error e => pure (.error ⟨{ s with origin := s.value.data }, e⟩)
      | .ok next =>
        if next.value.data = s.value.data then pure (.ok (s.reach next))
        else followWith get steps (s.reach next)
    else pure (.ok s)

/-- With lookups that have no effect the walk is the one of the resources. -/
theorem run_followWith_pure (n : Nat) (s : Resolved) :
    (followWith (fun id => (pure (r.get id true 0) : Id _)) n s).run = r.followFor n s := by
  induction n, s using r.followFor_induction with
  | still n s h =>
      rw [followFor_still n h]
      cases n <;> simp [followWith, h]
  | limit s h => simp [followFor_limit h, followWith, h]
  | lost n s e h hget => simp [followFor_lost n h hget, followWith, h, hget]
  | own n s next h hget hown => simp [followFor_own n h hget hown, followWith, h, hget, hown]
  | next n s next h hget hother ih =>
      rw [followFor_next n h hget hother, ← ih]
      simp [followWith, h, hget, hother]

/-- Looks a value up and logs that. -/
def getLogged (r : Resources) (id : ResourceId) : StateM LookupLog (Except LookupError Resolved) :=
  fun log => (r.get id true 0, log ++ [(id, r.get id true 0)])

/-- The end of a chain, and the lookups on the way to it. -/
def followLogged (r : Resources) (s : Resolved) : Except Unresolved Resolved × LookupLog :=
  (followWith r.getLogged maxSteps { s with origin := 0 }).run []

/-- The lookups that are made from a value in a number of steps. -/
def lookupsFor (r : Resources) : Nat → Value → LookupLog
  | 0, _ => []
  | steps + 1, v =>
    if v.isLiveReference then
      match r.get v.data true 0 with
      | .error e => [(v.data, .error e)]
      | .ok next =>
        (v.data, .ok next) ::
          if next.value.data = v.data then [] else r.lookupsFor steps next.value
    else []

theorem run_getLogged {answer : Except LookupError Resolved} (h : r.get id true 0 = answer)
    (log : LookupLog) : (r.getLogged id).run log = (answer, log ++ [(id, answer)]) := by
  rw [← h]
  rfl

/-- A lookup that found something is logged, and the walk goes on from there. -/
theorem run_followWith_found {next : Resolved} (n : Nat) (h : s.value.isLiveReference = true)
    (hget : r.get s.value.data true 0 = .ok next) (log : LookupLog) :
    (followWith r.getLogged (n + 1) s).run log =
      (if next.value.data = s.value.data then pure (.ok (s.reach next))
        else followWith r.getLogged n (s.reach next) : StateM LookupLog _).run
          (log ++ [(s.value.data, .ok next)]) := by
  rw [followWith, if_pos h, StateT.run_bind, run_getLogged hget]
  rfl

/-- With lookups that are logged a walk has the same answer. -/
theorem run_followWith_logged (n : Nat) (s : Resolved) (log : LookupLog) :
    (followWith r.getLogged n s).run log = (r.followFor n s, log ++ r.lookupsFor n s.value) := by
  induction n, s using r.followFor_induction generalizing log with
  | still n s h =>
      rw [followFor_still n h]
      cases n <;> simp [followWith, lookupsFor, h] <;> rfl
  | limit s h =>
      rw [followFor_limit h, followWith, lookupsFor, if_pos h, List.append_nil]
      rfl
  | lost n s e h hget =>
      rw [followFor_lost n h hget, lookupsFor, followWith, if_pos h, if_pos h, StateT.run_bind,
        run_getLogged hget, hget]
      rfl
  | own n s next h hget hown =>
      rw [run_followWith_found n h hget, followFor_own n h hget hown, lookupsFor, if_pos h, hget,
        if_pos hown]
      dsimp only
      rw [if_pos hown]
      rfl
  | next n s next h hget hother ih =>
      rw [run_followWith_found n h hget, followFor_next n h hget hother, lookupsFor, if_pos h, hget,
        if_neg hother, ih, List.append_assoc]
      dsimp only
      rw [if_neg hother]
      rfl

theorem length_lookupsFor_le (r : Resources) (n : Nat) (v : Value) :
    (r.lookupsFor n v).length ≤ n := by
  induction n generalizing v with
  | zero => exact Nat.le_refl 0
  | succ n ih =>
      unfold lookupsFor
      split
      · split
        · simp
        · next next _ =>
          rw [List.length_cons]
          refine Nat.succ_le_succ ?_
          split
          · exact Nat.zero_le n
          · exact ih next.value
      · exact Nat.zero_le _

/-! ## Trails -/

/-- A lookup that found something. -/
abbrev Step := ResourceId × Resolved

/-- Lookups that all found something, as they are logged. -/
def found (steps : List Step) : LookupLog := steps.map fun x => (x.1, .ok x.2)

/-- The steps from one value to another: every value on the way refers to the id that is looked
up next. -/
inductive Trail (r : Resources) : Resolved → List Step → Resolved → Prop
  | refl {s : Resolved} : Trail r s [] s
  | step {s t next : Resolved} {steps : List Step} (h : s.value.isLiveReference = true)
      (hget : r.get s.value.data true 0 = .ok next) (hrest : Trail r (s.reach next) steps t) :
      Trail r s ((s.value.data, next) :: steps) t

/-- The end of a trail varies along all axes that were met. -/
theorem Trail.axes_eq {steps : List Step} (h : r.Trail s steps t) :
    t.axes = steps.foldl (fun axes x => axes.union x.2.axes) s.axes := by
  induction h with
  | refl => rfl
  | step _ _ _ ih => exact ih

/-- The end of a trail comes from the id that was looked up last. -/
theorem Trail.origin_eq {steps : List Step} (h : r.Trail s steps t) :
    t.origin = ((steps.getLast?).map (·.1)).getD s.origin := by
  induction h with
  | refl => rfl
  | step _ _ _ ih =>
      rw [ih, List.getLast?_cons]
      cases List.getLast? _ <;> rfl

/-- A chain that ends is a trail of lookups, all of which found something. -/
theorem trail_of_followFor (h : r.followFor n s = .ok t) :
    ∃ steps, r.lookupsFor n s.value = found steps ∧ r.Trail s steps t := by
  induction n, s using r.followFor_induction with
  | still n s hstill =>
      obtain rfl := Except.ok.inj ((followFor_still n hstill).symm.trans h)
      refine ⟨[], ?_, .refl⟩
      cases n <;> simp [lookupsFor, hstill, found]
  | limit s hlive => cases (followFor_limit hlive).symm.trans h
  | lost n s e hlive hget => cases (followFor_lost n hlive hget).symm.trans h
  | own n s next hlive hget hown =>
      obtain rfl := Except.ok.inj ((followFor_own n hlive hget hown).symm.trans h)
      refine ⟨[(s.value.data, next)], ?_, .step hlive hget .refl⟩
      simp [lookupsFor, hlive, hget, hown, found]
  | next n s next hlive hget hother ih =>
      obtain ⟨steps, hlog, htrail⟩ := ih ((followFor_next n hlive hget hother).symm.trans h)
      refine ⟨(s.value.data, next) :: steps, ?_, .step hlive hget htrail⟩
      have hlog' : r.lookupsFor n next.value = found steps := hlog
      simp [lookupsFor, hlive, hget, hother, hlog', found]

/-! ## Where a chain ends -/

/-- A lookup of what a value refers to finds the value itself. -/
structure RefersToItself (r : Resources) (t next : Resolved) : Prop where
  get : r.get t.value.data true 0 = .ok next
  value : next.value = t.value
  cookie : next.cookie = t.cookie
  config : next.config = t.config
  axes : t.axes.union next.axes = t.axes

/-- A chain ends where there is no reference, or at a value that refers to itself. -/
theorem end_of_followFor (h : r.followFor n s = .ok t) :
    t.value.isLiveReference = false ∨ ∃ next, r.RefersToItself t next := by
  induction n, s using r.followFor_induction with
  | still n s hstill =>
      obtain rfl := Except.ok.inj ((followFor_still n hstill).symm.trans h)
      exact .inl hstill
  | limit s hlive => cases (followFor_limit hlive).symm.trans h
  | lost n s e hlive hget => cases (followFor_lost n hlive hget).symm.trans h
  | own n s next hlive hget hown =>
      obtain rfl := Except.ok.inj ((followFor_own n hlive hget hown).symm.trans h)
      refine .inr ⟨next, ?_, rfl, rfl, rfl, Axes.union_union_self _ _⟩
      rw [← hget, ← hown]
      rfl
  | next n s next hlive hget hother ih =>
      exact ih ((followFor_next n hlive hget hother).symm.trans h)

/-- From where a chain ended it ends there again. -/
theorem follow_end (h : t.value.isLiveReference = false ∨ ∃ next, r.RefersToItself t next) :
    ∃ again, r.follow t = .ok again ∧ again.value = t.value ∧ again.cookie = t.cookie ∧
      again.config = t.config ∧ again.axes = t.axes := by
  unfold follow
  cases hlive : t.value.isLiveReference with
  | false => exact ⟨_, followFor_still maxSteps hlive, rfl, rfl, rfl, rfl⟩
  | true =>
      rw [hlive] at h
      obtain ⟨next, hnext⟩ := h.resolve_left (by decide)
      have hown : next.value.data = t.value.data := congrArg Value.data hnext.value
      exact ⟨_, followFor_own 19 hlive hnext.get hown, hnext.value, hnext.cookie, hnext.config,
        hnext.axes⟩

/-! ## Chains that are too long -/

/-- A lookup of a value finds nothing because of the id that is looked up. -/
theorem error_of_get (h : r.get id true 0 = .error e) : e = .invalidId id ∨ e = .notFound id := by
  unfold get find at h
  grind

/-- A chain is too long exactly if there is a trail of as many steps as are allowed, none of
which finds its own id, to a value that is still a reference. -/
theorem followFor_eq_limit_iff :
    r.followFor n s = .error ⟨u, .tooManySteps id⟩ ↔
      id = u.value.data ∧ u.value.isLiveReference = true ∧
        ∃ steps, r.lookupsFor n s.value = found steps ∧ r.Trail s steps u ∧
          steps.length = n ∧ ∀ x ∈ steps, x.2.value.data ≠ x.1 := by
  induction n, s using r.followFor_induction with
  | still n s hstill =>
      rw [followFor_still n hstill]
      refine iff_of_false (fun h => by cases h) ?_
      rintro ⟨-, hlive, steps, -, htrail, -, -⟩
      cases htrail with
      | refl => cases hstill.symm.trans hlive
      | step hlive _ _ => cases hstill.symm.trans hlive
  | limit s hlive =>
      rw [followFor_limit hlive]
      constructor
      · intro h
        cases h
        exact ⟨rfl, hlive, [], rfl, .refl, rfl, by simp⟩
      · rintro ⟨rfl, -, steps, -, htrail, hlength, -⟩
        obtain rfl := List.length_eq_zero_iff.mp hlength
        cases htrail
        rfl
  | lost n s e hlive hget =>
      rw [followFor_lost n hlive hget]
      refine iff_of_false (fun h => ?_) ?_
      · cases h
        rcases error_of_get hget with h | h <;> cases h
      · rintro ⟨-, -, steps, -, htrail, hlength, -⟩
        cases htrail with
        | refl => cases hlength
        | step _ hget' _ => cases hget.symm.trans hget'
  | own n s next hlive hget hown =>
      rw [followFor_own n hlive hget hown]
      refine iff_of_false (fun h => by cases h) ?_
      rintro ⟨-, -, steps, -, htrail, hlength, hother⟩
      cases htrail with
      | refl => cases hlength
      | step _ hget' _ =>
          obtain rfl := Except.ok.inj (hget.symm.trans hget')
          exact hother _ List.mem_cons_self hown
  | next n s next hlive hget hother ih =>
      have hlog : r.lookupsFor (n + 1) s.value =
          (s.value.data, .ok next) :: r.lookupsFor n (s.reach next).value := by
        simp [lookupsFor, hlive, hget, hother, Resolved.reach]
      rw [followFor_next n hlive hget hother, ih, hlog]
      refine and_congr_right fun _ => and_congr_right fun _ => ⟨?_, ?_⟩
      · rintro ⟨steps, hsteps, htrail, hlength, hothers⟩
        refine ⟨(s.value.data, next) :: steps, ?_, .step hlive hget htrail,
          congrArg Nat.succ hlength, List.forall_mem_cons.mpr ⟨hother, hothers⟩⟩
        rw [hsteps]
        rfl
      · rintro ⟨steps, hsteps, htrail, hlength, hothers⟩
        cases htrail with
        | refl => cases hlength
        | step _ hget' hrest =>
            obtain rfl := Except.ok.inj (hget.symm.trans hget')
            exact ⟨_, List.tail_eq_of_cons_eq hsteps, hrest, Nat.succ.inj hlength,
              (List.forall_mem_cons.mp hothers).2⟩

/-! ## Chains altogether -/

/-- What is said of the chain that starts at a value. -/
structure FollowsChain (r : Resources) (s : Resolved) : Prop where
  /-- With plain lookups it is the walk that can also be logged. -/
  plain : r.follow s =
    (followWith (fun id => (pure (r.get id true 0) : Id _)) maxSteps { s with origin := 0 }).run
  /-- The log is that of the walk. -/
  logged : (r.followLogged s).1 = r.follow s
  /-- Twenty lookups are made at most. -/
  lookups_le : (r.followLogged s).2.length ≤ 20
  /-- Where the chain ends all lookups found something, the axes of all of them were met, and the
  last one is where the value comes from. -/
  trail : ∀ t, r.follow s = .ok t →
    ∃ steps, (r.followLogged s).2 = found steps ∧ r.Trail { s with origin := 0 } steps t ∧
      t.axes = steps.foldl (fun axes x => axes.union x.2.axes) s.axes ∧
      t.origin = ((steps.getLast?).map (·.1)).getD 0
  /-- The chain ends at a value without a reference, or at one that a lookup leads back to. -/
  ends : ∀ t, r.follow s = .ok t →
    t.value.isLiveReference = false ∨
      ∃ next, r.get t.value.data true 0 = .ok next ∧ next.value.data = t.value.data
  /-- It is too long if twenty lookups found something, none of them its own id, and there is
  still a reference, and only then. -/
  limit_iff : ∀ u id, r.follow s = .error ⟨u, .tooManySteps id⟩ ↔
    id = u.value.data ∧ u.value.isLiveReference = true ∧
      ∃ steps, (r.followLogged s).2 = found steps ∧ r.Trail { s with origin := 0 } steps u ∧
        steps.length = 20 ∧ ∀ x ∈ steps, x.2.value.data ≠ x.1
  /-- From where it ends it ends there again. -/
  again : ∀ t, r.follow s = .ok t →
    ∃ again, r.follow t = .ok again ∧ again.value = t.value ∧ again.cookie = t.cookie ∧
      again.config = t.config ∧ again.axes = t.axes

theorem followLogged_eq (r : Resources) (s : Resolved) :
    r.followLogged s = (r.follow s, r.lookupsFor maxSteps s.value) :=
  run_followWith_logged maxSteps { s with origin := 0 } []

/-- Every chain of references is followed as is said. -/
theorem followsChain (r : Resources) (s : Resolved) : r.FollowsChain s where
  plain := (run_followWith_pure maxSteps { s with origin := 0 }).symm
  logged := by rw [followLogged_eq]
  lookups_le := by
    rw [followLogged_eq]
    exact r.length_lookupsFor_le maxSteps s.value
  trail t h := by
    rw [followLogged_eq]
    obtain ⟨steps, hlog, htrail⟩ := trail_of_followFor h
    exact ⟨steps, hlog, htrail, htrail.axes_eq, htrail.origin_eq⟩
  ends t h := (end_of_followFor h).imp_right fun ⟨next, hnext⟩ =>
    ⟨next, hnext.get, congrArg Value.data hnext.value⟩
  limit_iff u id := by
    rw [followLogged_eq]
    exact followFor_eq_limit_iff
  again t h := follow_end (end_of_followFor h)

end Resources

end AppResources
