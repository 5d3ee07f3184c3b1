import AppResources.Resources.Select

/-!
# What a lookup selects from

A lookup goes over the packages of a group and over the variants of each. Variants that do
not define the resource are passed over only after they were compared, and the variants
that fit the current configuration come from a list that was made before. None of this
shows: the entry that is selected is the winner among the *candidates*, the entries that
the packages define for the resource in variants that fit the request, in the order of the
packages and of their variants.

## Main definitions

* `PackageGroup.candidates`: the candidates for a resource.
* `Candidate.winner`: the candidate that is left when each one challenges the one before.
* `PackageGroup.lookup`: the winner among the candidates, as an answer.
* `Resources.Fitted`: whether the known variants are those for the current configuration.

## Main results

* `find_eq_lookup`: the entry that is found is the winner.
* `lookup_refit`: the variants that were found before do not matter for it.
-/

namespace AppResources

/-! ## Candidates and their winner -/

namespace GroupMember

/-- The entries of a package that an id names in the variants that fit a request. -/
def candidates (request : Config) (id : ResourceId) (m : GroupMember) : List Candidate :=
  match m.locate? (ResourceId.type id) (ResourceId.entry id) with
  | none => []
  | some (_, s, index) =>
    (s.variants.filter (·.config.fits request)).filterMap fun v =>
      (v.entry? index).map (⟨m, v, ·⟩)

/-- The axes along which a package varies the resource with an id. -/
def axesOf (id : ResourceId) (m : GroupMember) : Axes :=
  match m.locate? (ResourceId.type id) (ResourceId.entry id) with
  | none => .none
  | some (_, s, index) => s.axesOf index

end GroupMember

namespace Candidate

/-- The better one of the current candidate and the next one. -/
def challenge (request : Config) (best : Option Candidate) (c : Candidate) :
    Option Candidate :=
  match best with
  | none => some c
  | some current =>
    if isReplacedBy request c.member.package.isOverlay current.variant c.variant then some c
    else some current

/-- The candidate that is left at the end. -/
def winner (request : Config) (cs : List Candidate) : Option Candidate :=
  cs.foldl (challenge request) none

/-- A candidate as the answer of a lookup in its group. -/
def selection (g : PackageGroup) (axes : Axes) (c : Candidate) : Selection where
  cookie := c.member.cookie
  entry := c.entry
  config := c.variant.config
  axes := axes
  package := c.member.package
  typeSlot := c.variant.typeId.toNat - 1
  libraries := g.libraries

end Candidate

namespace PackageGroup

/-- The entries of all packages of a group that an id names in the variants that fit a
request. -/
def candidates (request : Config) (id : ResourceId) (g : PackageGroup) : List Candidate :=
  g.members.flatMap (GroupMember.candidates request id)

/-- The axes along which any package of a group varies the resource with an id. -/
def axesOf (id : ResourceId) (g : PackageGroup) : Axes :=
  g.members.foldl (fun axes m => axes.union (m.axesOf id)) .none

/-- The answer of a group for an id and a request. -/
def lookup (request : Config) (id : ResourceId) (g : PackageGroup) :
    Except LookupError Selection :=
  match Candidate.winner request (g.candidates request id) with
  | none => .error (.notFound id)
  | some c => .ok (c.selection g (g.axesOf id))

end PackageGroup

/-- The known variants are those that fit the current configuration. -/
def Resources.Fitted (r : Resources) : Prop :=
  ∀ g ∈ r.groups, ∀ m ∈ g.members, m.fitting = GroupMember.fittingOf m.package r.config

variable {request config : Config} {id : ResourceId} {m : GroupMember} {g : PackageGroup}
  {c : Candidate} {cs : List Candidate}

namespace Candidate

/-- The better candidate is one of the two. -/
theorem mem_challenge {best : Option Candidate} {d : Candidate}
    (h : d ∈ challenge request best c) : d = c ∨ d ∈ best := by
  unfold challenge at h
  split at h
  · exact Or.inl (Option.mem_some_iff.mp h).symm
  · split at h
    · exact Or.inl (Option.mem_some_iff.mp h).symm
    · exact Or.inr h

/-- The last candidate is one of all. -/
theorem mem_foldl_challenge {best : Option Candidate} {d : Candidate}
    (h : d ∈ cs.foldl (challenge request) best) : d ∈ cs ∨ d ∈ best := by
  induction cs generalizing best with
  | nil => exact Or.inr h
  | cons c cs ih =>
      rcases ih h with hmem | hmem
      · exact Or.inl (List.mem_cons_of_mem _ hmem)
      · rcases mem_challenge hmem with rfl | hmem
        · exact Or.inl List.mem_cons_self
        · exact Or.inr hmem

end Candidate

theorem Axes.union_none (a : Axes) : a.union .none = a := by
  cases a
  simp [Axes.union, Axes.none]

theorem Package.mem_slots {p : Package} {slot : Nat} {s : TypeSpec}
    (h : p.spec? slot = some s) : some s ∈ p.slots := by
  unfold spec? at h
  split at h
  · next found hfound => exact h ▸ List.mem_of_getElem? hfound
  · cases h

namespace GroupMember

/-- What a candidate is. -/
theorem mem_candidates_iff :
    c ∈ m.candidates request id ↔
      ∃ slot s index, m.locate? (ResourceId.type id) (ResourceId.entry id) = some (slot, s, index) ∧
        c.member = m ∧ c.variant ∈ s.variants ∧ c.variant.config.fits request = true ∧
          c.variant.entry? index = some c.entry := by
  unfold candidates
  cases hlocate : m.locate? (ResourceId.type id) (ResourceId.entry id) with
  | none => simp
  | some found =>
      obtain ⟨slot, s, index⟩ := found
      simp only [List.mem_filterMap, List.mem_filter, Option.map_eq_some_iff, Option.some.injEq,
        Prod.mk.injEq]
      constructor
      · rintro ⟨v, ⟨hv, hfits⟩, entry, hentry, rfl⟩
        exact ⟨slot, s, index, ⟨rfl, rfl, rfl⟩, rfl, hv, hfits, hentry⟩
      · rintro ⟨_, _, _, ⟨rfl, rfl, rfl⟩, hmember, hv, hfits, hentry⟩
        exact ⟨c.variant, ⟨hv, hfits⟩, c.entry, hentry, hmember ▸ rfl⟩

theorem spec?_of_locate? {type : UInt8} {entry : UInt16} {slot : Nat} {s : TypeSpec}
    {index : UInt16} (h : m.locate? type entry = some (slot, s, index)) :
    m.package.spec? slot = some s := by
  unfold locate? at h
  dsimp only at h
  split at h
  · cases h
  · split at h
    · cases h
    · next s' hspec =>
        split at h
        · cases h
          exact hspec
        · next map _ =>
            obtain ⟨own, _, heq⟩ := Option.map_eq_some_iff.mp h
            cases heq
            exact hspec

/-- The variants that were found for the current configuration are those that fit the
request. -/
theorem fittingFor_eq {slot : Nat} {s : TypeSpec} {isCurrent : Bool}
    (hspec : m.package.spec? slot = some s) (hfitting : m.fitting = fittingOf m.package config)
    (hcurrent : isCurrent = true → request = config) :
    m.fittingFor slot s isCurrent request = s.variants.filter (·.config.fits request) := by
  unfold fittingFor
  cases isCurrent with
  | false => rfl
  | true =>
      have hslot : m.package.slots[slot]? = some (some s) := by
        unfold Package.spec? at hspec
        split at hspec
        · next found hfound => rw [hfound, hspec]
        · cases hspec
      have hfound : m.fitting[slot]? = some (s.variants.filter (·.config.fits config)) := by
        rw [hfitting, fittingOf, List.getElem?_map, hslot]
        rfl
      rw [hcurrent rfl, hfound]
      rfl

end GroupMember

/-! ## The search -/

namespace Search

/-- A variant that does not define the entry changes nothing, however it compares. -/
theorem improve_eq (index : UInt16) (best : Option Candidate) (v : Variant) :
    Candidate.improve request m index best v =
      match v.entry? index with
      | none => best
      | some entry => Candidate.challenge request best ⟨m, v, entry⟩ := by
  unfold Candidate.improve
  cases v.entry? index with
  | none => exact ite_self best
  | some entry => cases best <;> rfl

theorem foldl_improve (index : UInt16) (vs : List Variant) (best : Option Candidate) :
    vs.foldl (Candidate.improve request m index) best =
      (vs.filterMap fun v => (v.entry? index).map (Candidate.mk m v ·)).foldl
        (Candidate.challenge request) best := by
  induction vs generalizing best with
  | nil => rfl
  | cons v vs ih =>
      rw [List.foldl_cons, ih, improve_eq, List.filterMap_cons]
      cases v.entry? index <;> rfl

/-- One more package adds its candidates and its axes. -/
theorem visit_eq (hfitting : m.fitting = GroupMember.fittingOf m.package config)
    {isCurrent : Bool} (hcurrent : isCurrent = true → request = config) (search : Search) :
    visit (ResourceId.type id) (ResourceId.entry id) isCurrent request search m =
      { best := (m.candidates request id).foldl (Candidate.challenge request) search.best
        axes := search.axes.union (m.axesOf id) } := by
  unfold visit GroupMember.candidates GroupMember.axesOf
  cases hlocate : m.locate? (ResourceId.type id) (ResourceId.entry id) with
  | none =>
      simp only [List.foldl_nil, Axes.union_none]
  | some found =>
      obtain ⟨slot, s, index⟩ := found
      have hspec := GroupMember.spec?_of_locate? hlocate
      simp only [GroupMember.fittingFor_eq hspec hfitting hcurrent, foldl_improve]

/-- All packages add their candidates and their axes. -/
theorem foldl_visit {members : List GroupMember} {isCurrent : Bool}
    (hfitting : ∀ m ∈ members, m.fitting = GroupMember.fittingOf m.package config)
    (hcurrent : isCurrent = true → request = config) (search : Search) :
    members.foldl (visit (ResourceId.type id) (ResourceId.entry id) isCurrent request) search =
      { best := (members.flatMap (GroupMember.candidates request id)).foldl (Candidate.challenge request)
          search.best
        axes := members.foldl (fun axes m => axes.union (m.axesOf id)) search.axes } := by
  induction members generalizing search with
  | nil => rfl
  | cons m members ih =>
      rw [List.forall_mem_cons] at hfitting
      rw [List.foldl_cons, visit_eq hfitting.1 hcurrent, ih hfitting.2, List.flatMap_cons,
        List.foldl_append, List.foldl_cons]

end Search

theorem PackageGroup.fitting_of_mem_refit {groups : List PackageGroup}
    (hg : g ∈ groups.map (refit config)) (hm : m ∈ g.members) :
    m.fitting = GroupMember.fittingOf m.package config := by
  obtain ⟨g', _, rfl⟩ := List.mem_map.mp hg
  obtain ⟨m', _, rfl⟩ := List.mem_map.mp hm
  rfl

/-- An answer carries the axes of the group, and one of the candidates has its entry. -/
theorem PackageGroup.of_lookup {s : Selection} (h : g.lookup request id = .ok s) :
    s.axes = g.axesOf id ∧ ∃ c ∈ g.candidates request id, s.entry = c.entry := by
  unfold lookup at h
  split at h
  · cases h
  · next c hwinner =>
      cases h
      refine ⟨rfl, c, ?_, rfl⟩
      rcases Candidate.mem_foldl_challenge (Option.mem_def.mpr hwinner) with hmem | hnone
      · exact hmem
      · cases hnone

namespace Resources

variable {r : Resources} {density : UInt16}

/-- A density that is the current one asks for nothing else. -/
theorem requestFor_current
    (h : (density == 0 || density == r.config.density) = true) :
    r.requestFor density = r.config := by
  unfold requestFor
  by_cases hzero : density = 0
  · rw [if_pos hzero]
  · have hsame : density = r.config.density := by simpa [hzero] using h
    rw [if_neg hzero, hsame]

/-- The entry of a resource is the winner among the candidates of its group. -/
theorem find_eq_lookup (hfitted : r.Fitted) (hvalid : ResourceId.isValid id = true)
    (hgroup : r.group? (ResourceId.package id) = some g) :
    r.find id density = g.lookup (r.requestFor density) id := by
  have hmem : g ∈ r.groups := List.mem_of_find?_eq_some hgroup
  have hcurrent : (density == 0 || density == r.config.density) = true →
      r.requestFor density = r.config := requestFor_current
  have hsearch := @Search.foldl_visit _ _ id _ _ (hfitted g hmem) hcurrent {}
  unfold find
  rw [if_pos hvalid, hgroup]
  simp only [hsearch]
  rfl

theorem find_of_not_valid (hvalid : ResourceId.isValid id = false) :
    r.find id density = .error (.invalidId id) := by
  unfold find
  rw [if_neg (by simp [hvalid])]

theorem find_of_no_group (hgroup : r.group? (ResourceId.package id) = none) :
    r.find id density = .error (.invalidId id) := by
  unfold find
  split
  · rw [hgroup]
  · rfl

/-- What is found was looked up in the group of the package byte. -/
theorem group?_of_find {s : Selection} (h : r.find id density = .ok s) :
    ResourceId.isValid id = true ∧ ∃ g, r.group? (ResourceId.package id) = some g := by
  cases hvalid : ResourceId.isValid id with
  | false =>
      rw [find_of_not_valid hvalid] at h
      cases h
  | true =>
      cases hgroup : r.group? (ResourceId.package id) with
      | none =>
          rw [find_of_no_group hgroup] at h
          cases h
      | some g => exact ⟨rfl, g, rfl⟩

/-- Giving assets finds the variants again. -/
theorem fitted_setAssets (r : Resources) (assets : List Asset) : (r.setAssets assets).Fitted :=
  fun _ hg _ hm => PackageGroup.fitting_of_mem_refit hg hm

end Resources

/-! ## Variants that were found before -/

namespace Candidate

/-- The candidate with the variants of its package as they are for a configuration. -/
def refit (config : Config) (c : Candidate) : Candidate :=
  { c with member := c.member.refit config }

theorem challenge_refit (best : Option Candidate) :
    challenge request (best.map (refit config)) (c.refit config) =
      (challenge request best c).map (refit config) := by
  cases best with
  | none => rfl
  | some current =>
      simp only [challenge, Option.map_some]
      change (if isReplacedBy request c.member.package.isOverlay current.variant c.variant then
        some (c.refit config) else some (current.refit config)) = _
      split <;> rfl

theorem winner_refit : winner request (cs.map (refit config)) =
    (winner request cs).map (refit config) := by
  have hfold : ∀ best : Option Candidate,
      (cs.map (refit config)).foldl (challenge request) (best.map (refit config)) =
        (cs.foldl (challenge request) best).map (refit config) := by
    induction cs with
    | nil => exact fun _ => rfl
    | cons c cs ih =>
        intro best
        rw [List.map_cons, List.foldl_cons, List.foldl_cons, challenge_refit, ih]
  exact hfold none

end Candidate

theorem GroupMember.candidates_refit :
    (m.refit config).candidates request id =
      (m.candidates request id).map (Candidate.refit config) := by
  unfold candidates
  have hlocate : (m.refit config).locate? (ResourceId.type id) (ResourceId.entry id) =
      m.locate? (ResourceId.type id) (ResourceId.entry id) := rfl
  rw [hlocate]
  cases m.locate? (ResourceId.type id) (ResourceId.entry id) with
  | none => rfl
  | some found =>
      obtain ⟨slot, s, index⟩ := found
      rw [List.map_filterMap]
      simp only [Option.map_map]
      rfl

theorem PackageGroup.candidates_refit :
    (g.refit config).candidates request id =
      (g.candidates request id).map (Candidate.refit config) := by
  unfold candidates PackageGroup.refit
  rw [List.flatMap_map, List.map_flatMap]
  simp only [GroupMember.candidates_refit]

theorem PackageGroup.axesOf_refit : (g.refit config).axesOf id = g.axesOf id := by
  unfold axesOf PackageGroup.refit
  rw [List.foldl_map]
  rfl

/-- The answer of a group does not depend on the variants that were found before. -/
theorem PackageGroup.lookup_refit :
    (g.refit config).lookup request id = g.lookup request id := by
  unfold lookup
  rw [candidates_refit, Candidate.winner_refit, axesOf_refit]
  cases Candidate.winner request (g.candidates request id) <;> rfl

end AppResources
