import AppResources.Proofs.Selection

/-!
# Where entries come from

The packages of the groups are those of the assets, and an entry that is found is stored in
one of the packages of its group, in whichever configuration the variants were found.

## Main results

* `mem_ofAssets`: the packages of groups are packages of assets.
* `exists_candidate_of_find`: what is found is an entry that the id names.
* `stored_of_find`: an entry that is found is stored.
-/

namespace AppResources

namespace PackageGroup

/-! ## Packages of groups -/

variable {P : Package → Prop} {groups : List PackageGroup} {cookie : Nat} {p : Package}
  {byte : UInt8} {assets : List Asset} {g : PackageGroup} {m : GroupMember}

/-- All packages of all groups have a property. -/
def All (P : Package → Prop) (groups : List PackageGroup) : Prop :=
  ∀ g ∈ groups, ∀ m ∈ g.members, P m.package

/-- What holds of a new group and is kept when a package is added holds of all groups. -/
theorem forall_mem_addTo {Q : PackageGroup → Prop} (hstart : Q (start byte p))
    (hadd : ∀ g, Q g → Q (g.addMember cookie p)) (h : ∀ g ∈ groups, Q g) :
    ∀ g ∈ addTo byte cookie p groups, Q g := by
  induction groups with
  | nil => exact List.forall_mem_singleton.mpr (hadd _ hstart)
  | cons g groups ih =>
      obtain ⟨hg, hgroups⟩ := List.forall_mem_cons.mp h
      unfold addTo
      split
      · exact List.forall_mem_cons.mpr ⟨hadd g hg, hgroups⟩
      · exact List.forall_mem_cons.mpr ⟨hg, ih hgroups⟩

theorem All.addTo (h : All P groups) (hp : P p) : All P (addTo byte cookie p groups) := by
  refine forall_mem_addTo (fun m hm => absurd hm List.not_mem_nil) (fun g hg m hm => ?_) h
  rcases List.mem_append.mp hm with hm | hm
  · exact hg m hm
  · obtain rfl := List.mem_singleton.mp hm
    exact hp

theorem All.add {assembly : Assembly} (h : All P assembly.groups) (hp : P p) :
    All P (assembly.add cookie p).groups := by
  unfold Assembly.add
  split
  · split
    · exact h
    · exact h.addTo hp
  · exact h.addTo hp

theorem mem_packagesFrom {entry : Nat × Package} (h : entry ∈ packagesFrom cookie assets) :
    ∃ asset ∈ assets, entry.2 ∈ asset.table.packages := by
  induction assets generalizing cookie with
  | nil => cases h
  | cons asset assets ih =>
      rcases List.mem_append.mp h with h | h
      · obtain ⟨p, hp, rfl⟩ := List.mem_map.mp h
        exact ⟨asset, List.mem_cons_self, hp⟩
      · obtain ⟨other, hother, hp⟩ := ih h
        exact ⟨other, List.mem_cons_of_mem _ hother, hp⟩

/-- The packages of the groups are packages of the assets. -/
theorem mem_ofAssets (hg : g ∈ ofAssets assets) (hm : m ∈ g.members) :
    ∃ asset ∈ assets, m.package ∈ asset.table.packages := by
  let P : Package → Prop := fun p => ∃ asset ∈ assets, p ∈ asset.table.packages
  have hfold : ∀ (entries : List (Nat × Package)) (assembly : Assembly),
      (∀ e ∈ entries, P e.2) → All P assembly.groups →
        All P (entries.foldl (fun (a : Assembly) e => a.add e.1 e.2) assembly).groups := by
    intro entries
    induction entries with
    | nil => exact fun _ _ h => h
    | cons e entries ih =>
        intro assembly hentries h
        rw [List.forall_mem_cons] at hentries
        exact ih _ hentries.2 (h.add hentries.1)
  obtain ⟨g', hg', rfl⟩ := List.mem_map.mp hg
  exact hfold _ {} (fun e he => mem_packagesFrom he) (fun g hg => absurd hg List.not_mem_nil)
    g' hg' m hm

end PackageGroup

/-! ## Stored entries -/

/-- All entries of a package. -/
def Package.stored (p : Package) : List Entry :=
  p.slots.flatMap fun slot => slot.toList.flatMap fun s => s.variants.flatMap fun v =>
    v.entries.toList.flatMap (·.toList)

variable {m : GroupMember} {id : ResourceId} {s : TypeSpec} {v : Variant} {index : UInt16}
  {entry : Entry} {config request : Config} {isCurrent : Bool} {slot : Nat} {c : Candidate}

theorem Package.mem_stored {p : Package} (hspec : p.spec? slot = some s) (hv : v ∈ s.variants)
    (hentry : v.entry? index = some entry) : entry ∈ p.stored := by
  have hstored : some entry ∈ v.entries.toList :=
    Array.mem_toList_iff.mpr (Array.mem_of_getElem? (Variant.entry?_eq_some_iff.mp hentry))
  unfold Package.stored
  simp only [List.mem_flatMap, Option.mem_toList]
  exact ⟨some s, mem_slots hspec, s, rfl, v, hv, some entry, hstored, rfl⟩

namespace GroupMember

/-- The variants that were found for some configuration are variants of the type. -/
theorem mem_of_mem_fittingFor (hspec : m.package.spec? slot = some s)
    (hfitting : m.fitting = fittingOf m.package config)
    (hv : v ∈ m.fittingFor slot s isCurrent request) : v ∈ s.variants := by
  cases isCurrent with
  | false => exact (List.mem_filter.mp hv).1
  | true =>
      have hknown : m.fittingFor slot s true request = m.fittingFor slot s true config := rfl
      rw [hknown, fittingFor_eq hspec hfitting fun _ => rfl] at hv
      exact (List.mem_filter.mp hv).1

end GroupMember

/-- An id names the entry of a candidate in the package of the candidate. -/
def Candidate.IsNamed (id : ResourceId) (c : Candidate) : Prop :=
  ∃ slot s index,
    c.member.locate? (ResourceId.type id) (ResourceId.entry id) = some (slot, s, index) ∧
      c.variant ∈ s.variants ∧ c.variant.entry? index = some c.entry

namespace Search

theorem of_mem_visit {search : Search}
    (hfitting : m.fitting = GroupMember.fittingOf m.package config)
    (hc : c ∈ (visit (ResourceId.type id) (ResourceId.entry id) isCurrent request search m).best) :
    (c.member = m ∧ c.IsNamed id) ∨ c ∈ search.best := by
  unfold visit at hc
  split at hc
  · exact Or.inr hc
  · next slot s index hlocate =>
      have hspec := GroupMember.spec?_of_locate? hlocate
      dsimp only at hc
      rw [foldl_improve] at hc
      rcases Candidate.mem_foldl_challenge hc with hc | hc
      · obtain ⟨v, hv, hcandidate⟩ := List.mem_filterMap.mp hc
        obtain ⟨entry, hentry, rfl⟩ := Option.map_eq_some_iff.mp hcandidate
        exact Or.inl ⟨rfl, slot, s, index, hlocate,
          GroupMember.mem_of_mem_fittingFor hspec hfitting hv, hentry⟩
      · exact Or.inr hc

theorem of_mem_foldl_visit {members : List GroupMember} {search : Search}
    (hfitting : ∀ m ∈ members, m.fitting = GroupMember.fittingOf m.package config)
    (hc : c ∈ (members.foldl
      (visit (ResourceId.type id) (ResourceId.entry id) isCurrent request) search).best) :
    (c.member ∈ members ∧ c.IsNamed id) ∨ c ∈ search.best := by
  induction members generalizing search with
  | nil => exact Or.inr hc
  | cons m members ih =>
      rw [List.forall_mem_cons] at hfitting
      rcases ih hfitting.2 hc with ⟨hmem, hnamed⟩ | hc
      · exact Or.inl ⟨List.mem_cons_of_mem _ hmem, hnamed⟩
      · rcases of_mem_visit hfitting.1 hc with ⟨rfl, hnamed⟩ | hc
        · exact Or.inl ⟨List.mem_cons_self, hnamed⟩
        · exact Or.inr hc

end Search

namespace Resources

variable {r : Resources} {density : UInt16} {found : Selection}

/-- What is found is an entry that the id names in a package of its group. -/
theorem exists_candidate_of_find
    (hfitting : ∀ g ∈ r.groups, ∀ m ∈ g.members,
      m.fitting = GroupMember.fittingOf m.package config)
    (h : r.find id density = .ok found) :
    ∃ g, r.group? (ResourceId.package id) = some g ∧
      ∃ c : Candidate, c.member ∈ g.members ∧ c.IsNamed id ∧ ∃ axes, found = c.selection g axes := by
  obtain ⟨hvalid, g, hgroup⟩ := group?_of_find h
  have hg : g ∈ r.groups := List.mem_of_find?_eq_some hgroup
  unfold find at h
  rw [if_pos hvalid, hgroup] at h
  dsimp only at h
  split at h
  · cases h
  · next c hbest =>
      cases h
      rcases Search.of_mem_foldl_visit (hfitting g hg) (Option.mem_def.mpr hbest)
        with ⟨hmem, hnamed⟩ | hnone
      · exact ⟨g, hgroup, c, hmem, hnamed, _, rfl⟩
      · cases hnone

/-- An entry that is found is stored in a package of a group, and what it refers to is
renumbered by the table of that group. -/
theorem stored_of_find
    (hfitting : ∀ g ∈ r.groups, ∀ m ∈ g.members,
      m.fitting = GroupMember.fittingOf m.package config)
    (h : r.find id density = .ok found) :
    ∃ g ∈ r.groups, found.libraries = g.libraries ∧ ∃ m ∈ g.members, found.entry ∈ m.package.stored := by
  obtain ⟨g, hgroup, c, hmem, ⟨slot, s, index, hlocate, hv, hentry⟩, axes, rfl⟩ :=
    exists_candidate_of_find hfitting h
  have hspec := GroupMember.spec?_of_locate? hlocate
  exact ⟨g, List.mem_of_find?_eq_some hgroup, rfl, c.member, hmem,
    Package.mem_stored hspec hv hentry⟩

end Resources

end AppResources
