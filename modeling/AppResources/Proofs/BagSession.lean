import AppResources.Proofs.BagCache
import AppResources.Proofs.Reconfiguration

/-!
# Sessions

A session is a sequence of calls on one manager: changes of assets or configuration, and
lookups of bags between them. What its lookups answer is the subject of the modules that
build on this one. Here it is said what a lookup of a bag makes its answer from: bags as they
are written and bags that are known, by inheritance.

## Main definitions

* `Call`, `Manager.answers`: a session and what it answers.

## Main results

* `bag_preserves`: what own bags and known bags have, and heirs keep, answers have.
-/

namespace AppResources

/-- A call on a manager. -/
inductive Call where
  | change (change : Change)
  | bag (id : ResourceId)

/-- The answers to the lookups of a session. -/
def Manager.answers (m : Manager) : List Call → List (Except LookupError Bag)
  | [] => []
  | .change change :: calls => (m.apply change).answers calls
  | .bag id :: calls => (m.bag id).1 :: (m.bag id).2.answers calls

/-- A bag of numbers under some keys. -/
def Entry.style (parent : ResourceId) (names : List ResourceId) : Entry :=
  .bag 0 0 parent (names.map fun name => ⟨name, ⟨.decimal, 0⟩⟩)

/-- An asset with one package that has one type of entries. -/
def Asset.ofVariants (id : UInt8) (axes : Array Axes)
    (variants : List (Config × List (Option Entry))) : Asset :=
  let p : Package := {
    name := "styles"
    id := id
    typeIdOffset := 0
    isDynamic := id == 0
    isSystem := false
    isOverlay := false
    typeNames := none
    keyNames := none
    libraries := []
    slots := [some {
      id := 1
      axes := axes
      overlay := none
      variants := variants.map fun v => ⟨1, 0, v.1, v.2.toArray⟩ }] }
  ⟨"styles", { packages := [p] }, none⟩

namespace Resources

variable {r : Resources} {cache : BagCache} {id : ResourceId} {Q : Bag → Prop}

/-- A bag as it is written for some id. -/
def IsOwn (r : Resources) (b : OwnBag) : Prop := r.ownBag b.id = .ok b

/-- A step of a climb ends it at a bag without a parent, at a bag of the climb itself or at a
known bag, or leads to the parent. -/
theorem ascend_cases {fuel : Nat} {below : List OwnBag} {chain : Ancestry}
    (h : r.ascend cache (fuel + 1) below id = .ok chain) :
    ∃ own, r.ownBag id = .ok own ∧
      (chain = ⟨[own], below, none⟩ ∨
        (∃ before last heirs, own :: below = before ++ last :: heirs ∧
          chain = ⟨before ++ [last], heirs, none⟩) ∨
        (∃ known, (own.parent, known) ∈ cache ∧ chain = ⟨[], own :: below, some known⟩) ∨
        r.ascend cache fuel (own :: below) own.parent = .ok chain) := by
  rw [ascend] at h
  cases hown : r.ownBag id with
  | error e =>
      rw [hown] at h
      cases h
  | ok own =>
      refine ⟨own, rfl, ?_⟩
      rw [hown] at h
      dsimp only at h
      split at h
      · exact Or.inl (Except.ok.inj h).symm
      · cases hspan : (own :: below).span (·.id != own.parent) with
        | mk before rest =>
            obtain ⟨hchain, _, _⟩ := span_ne_spec hspan
            rw [hspan] at h
            cases rest with
            | cons last heirs =>
                exact Or.inr (Or.inl ⟨before, last, heirs, hchain, (Except.ok.inj h).symm⟩)
            | nil =>
                dsimp only at h
                cases hknown : cache.lookup own.parent with
                | some known =>
                    rw [hknown] at h
                    exact Or.inr (Or.inr (Or.inl
                      ⟨known, mem_of_lookup hknown, (Except.ok.inj h).symm⟩))
                | none =>
                    rw [hknown] at h
                    exact Or.inr (Or.inr (Or.inr h))

/-- What a chain of parents is made of. -/
theorem ascend_sources {fuel : Nat} {below : List OwnBag} {chain : Ancestry}
    (h : r.ascend cache fuel below id = .ok chain) (hbelow : ∀ b ∈ below, r.IsOwn b) :
    (∀ b ∈ chain.alone, r.IsOwn b) ∧ (∀ b ∈ chain.heirs, r.IsOwn b) ∧
      ∀ known ∈ chain.known, ∃ parent, (parent, known) ∈ cache := by
  induction fuel generalizing below id with
  | zero => cases h
  | succ fuel ih =>
      obtain ⟨own, hown, hend⟩ := ascend_cases h
      have hisOwn : r.IsOwn own := by
        rw [IsOwn, id_of_ownBag hown, hown]
      have hall : ∀ b ∈ own :: below, r.IsOwn b :=
        List.forall_mem_cons.mpr ⟨hisOwn, hbelow⟩
      rcases hend with rfl | ⟨before, last, heirs, hchain, rfl⟩ | ⟨known, hknown, rfl⟩ | h
      · exact ⟨by simpa using hisOwn, hbelow, fun _ hnone => by cases hnone⟩
      · have halone : ∀ b ∈ before ++ [last], b ∈ own :: below := fun b hb => by
          rw [hchain, List.append_cons]
          exact List.mem_append_left _ hb
        have hheirs : ∀ b ∈ heirs, b ∈ own :: below := fun b hb => by
          rw [hchain]
          exact List.mem_append_right _ (List.mem_cons_of_mem _ hb)
        exact ⟨fun b hb => hall b (halone b hb), fun b hb => hall b (hheirs b hb),
          fun _ hnone => by cases hnone⟩
      · refine ⟨fun _ hb => absurd hb List.not_mem_nil, hall, ?_⟩
        intro found hfound
        obtain rfl := Option.mem_some_iff.mp hfound
        exact ⟨own.parent, hknown⟩
      · exact ih h hall

theorem descend_preserves {heirs : List OwnBag} {top : Option Bag}
    (hown : ∀ b ∈ heirs, Q b.bag) (hinherit : ∀ b ∈ heirs, ∀ parent, Q parent → Q (b.inherit parent))
    (htop : ∀ b ∈ top, Q b) (hcache : ∀ e ∈ cache, Q e.2) :
    (∀ b ∈ (Ancestry.descend heirs top cache).1, Q b) ∧
      ∀ e ∈ (Ancestry.descend heirs top cache).2, Q e.2 := by
  induction heirs generalizing top cache with
  | nil => exact ⟨htop, hcache⟩
  | cons own heirs ih =>
      rw [List.forall_mem_cons] at hown hinherit
      have hstep : ∀ merged, Q merged →
          (∀ b ∈ (Ancestry.descend heirs (some merged) ((own.id, merged) :: cache)).1, Q b) ∧
            ∀ e ∈ (Ancestry.descend heirs (some merged) ((own.id, merged) :: cache)).2, Q e.2 := by
        intro merged hmerged
        refine ih hown.2 hinherit.2 ?_ (List.forall_mem_cons.mpr ⟨hmerged, hcache⟩)
        intro found hfound
        exact Option.mem_some_iff.mp hfound ▸ hmerged
      cases top with
      | none => exact hstep _ hown.1
      | some parent => exact hstep _ (hinherit.1 parent (htop parent rfl))

theorem flatten_preserves {chain : Ancestry} (halone : ∀ b ∈ chain.alone, Q b.bag)
    (hheirs : ∀ b ∈ chain.heirs, Q b.bag)
    (hinherit : ∀ b ∈ chain.heirs, ∀ parent, Q parent → Q (b.inherit parent))
    (hknown : ∀ b ∈ chain.known, Q b) (hcache : ∀ e ∈ cache, Q e.2) :
    (∀ b ∈ (chain.flatten cache).1, Q b) ∧ ∀ e ∈ (chain.flatten cache).2, Q e.2 := by
  unfold Ancestry.flatten
  rw [settle_eq]
  refine descend_preserves hheirs hinherit ?_ ?_
  · intro b hb
    rcases Option.or_eq_some_iff.mp (Option.mem_def.mp hb) with hb | ⟨_, hb⟩
    · obtain ⟨last, hlast, rfl⟩ := Option.map_eq_some_iff.mp hb
      exact halone last (List.mem_of_getLast? hlast)
    · exact hknown b hb
  · intro e he
    rcases List.mem_append.mp he with he | he
    · obtain ⟨b, hb, rfl⟩ := List.mem_map.mp (List.mem_reverse.mp he)
      exact halone b hb
    · exact hcache e he

/-- What own bags and known bags have, and bags keep when they inherit, is had by every
answer and by all bags that are known after it. -/
theorem bag_preserves (hown : ∀ b, r.IsOwn b → Q b.bag)
    (hinherit : ∀ b, r.IsOwn b → ∀ parent, Q parent → Q (b.inherit parent))
    (hcache : ∀ e ∈ cache, Q e.2) :
    (∀ b, (r.bag id cache).1 = .ok b → Q b) ∧ ∀ e ∈ (r.bag id cache).2, Q e.2 := by
  unfold bag
  cases hknown : cache.lookup id with
  | some known =>
      refine ⟨fun b hb => ?_, hcache⟩
      cases hb
      exact hcache _ (mem_of_lookup hknown)
  | none =>
      cases hascend : r.ascend cache idCount [] id with
      | error e => exact ⟨fun _ hb => (nomatch hb), hcache⟩
      | ok chain =>
          obtain ⟨halone, hheirs, hchain⟩ :=
            ascend_sources hascend fun _ hb => absurd hb List.not_mem_nil
          have hflatten := flatten_preserves (fun b hb => hown b (halone b hb))
            (fun b hb => hown b (hheirs b hb)) (fun b hb => hinherit b (hheirs b hb))
            (fun b hb => (hchain b hb).elim fun _ hparent => hcache _ hparent) hcache
          dsimp only
          split
          · next found cache' hresult =>
              rw [hresult] at hflatten
              refine ⟨fun b hb => ?_, hflatten.2⟩
              cases hb
              exact hflatten.1 found rfl
          · next cache' hresult =>
              rw [hresult] at hflatten
              exact ⟨fun _ hb => (nomatch hb), hflatten.2⟩

end Resources

end AppResources
