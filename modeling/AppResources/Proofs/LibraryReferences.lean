import AppResources.Proofs.LoadedAssets
import AppResources.Proofs.Origin
import AppResources.Proofs.RuntimeIds

/-!
# References to libraries

A package names the libraries that it was compiled against, each with the id it had then. The
table of its group collects these names while the groups are made, and only when all groups
are there every name is tied to the run-time id of the group that carries it. So it does not
matter whether a library comes before or behind the packages that refer to it.

The table has one slot for a build-time id. The slot of a library is written by the one group
with its name, and by no other one as long as no second library shares its id; the value is
not the zero that stands for "unknown", since no group has that id.

## Main definitions

* `PackageGroup.declared`: the libraries that the packages of a group name.
* `PackageGroup.DeclaresApart`: these can be told apart by name and by id.

## Main results

* `libraries_of_mem_foldl_place`: what a group knows before the groups are linked.
* `lookup_ids_link`: what linking writes into the slot of a library.
* `runtimeId?_of_declared`: references to a library get its run-time id.
-/

namespace AppResources

/-! ## Names and slots -/

namespace LibraryTable

variable {t : LibraryTable} {name other : String} {buildId runtimeId : UInt8}

theorem lookup_binding {α β : Type} [BEq α] [LawfulBEq α] [DecidableEq α] (key a : α) (b : β)
    (rest : List (α × β)) :
    ((key, b) :: rest).lookup a = if a = key then some b else rest.lookup a := by
  by_cases h : a = key
  · subst h
    simp
  · have hfalse : (a == key) = false := beq_false_of_ne h
    simp [List.lookup_cons, hfalse, h]

theorem lookup_bindName (names : List (String × UInt8)) :
    (bindName name buildId names).lookup other =
      if other = name then some buildId else names.lookup other := by
  induction names with
  | nil => exact lookup_binding name other buildId []
  | cons first names ih =>
      obtain ⟨key, id⟩ := first
      unfold bindName
      by_cases hkey : key = name
      · rw [if_pos hkey, lookup_binding, lookup_binding]
        subst hkey
        split <;> rfl
      · rw [if_neg hkey, lookup_binding, lookup_binding, ih]
        -- a name in another binding is not the one that is bound
        split
        · next hother => rw [if_neg (by rw [hother]; exact hkey)]
        · rfl

theorem buildId?_addLibrary :
    (t.addLibrary name buildId).buildId? other =
      if other = name then some buildId else t.buildId? other :=
  lookup_bindName t.names

theorem buildId?_mapName : (t.mapName name runtimeId).buildId? other = t.buildId? other := by
  unfold mapName
  split <;> rfl

/-- A name that is tied to a run-time id writes the slot of its build-time id. -/
theorem lookup_ids_mapName :
    (t.mapName name runtimeId).ids.lookup buildId =
      if t.buildId? name = some buildId then some runtimeId else t.ids.lookup buildId := by
  unfold mapName
  cases hname : t.buildId? name with
  | none => simp
  | some found =>
      refine (lookup_binding found buildId runtimeId t.ids).trans ?_
      simp [eq_comm]

/-- Of the libraries with one name the last one counts. -/
theorem buildId?_foldl_addLibrary (libraries : List Library) :
    (libraries.foldl (fun t l => t.addLibrary l.name l.buildId) t).buildId? name =
      match libraries.reverse.find? (·.name == name) with
      | some l => some l.buildId
      | none => t.buildId? name := by
  induction libraries generalizing t with
  | nil => rfl
  | cons l libraries ih =>
      rw [List.foldl_cons, ih, List.reverse_cons, List.find?_append]
      cases libraries.reverse.find? (·.name == name) with
      | some later => rfl
      | none =>
          rw [Option.none_or, buildId?_addLibrary]
          by_cases hname : l.name = name
          · simp [hname]
          · have hne : ¬ name = l.name := fun heq => hname heq.symm
            simp [hname, hne]

/-- A slot that is neither reserved nor unknown decides. -/
theorem runtimePackage?_of_lookup (hzero : buildId ≠ 0) (happ : buildId ≠ ResourceId.appPackage)
    (hids : t.ids.lookup buildId = some runtimeId) (hknown : runtimeId ≠ 0) :
    t.runtimePackage? buildId = some runtimeId := by
  unfold runtimePackage?
  rw [if_neg (fun h => happ h.1), if_neg (fun h => h.elim hzero happ), hids]
  simp [hknown]

end LibraryTable

namespace PackageGroup

variable {g : PackageGroup} {groups : List PackageGroup} {assets : List Asset}

/-- The libraries that the packages of a group name, in order. -/
def declared (g : PackageGroup) : List Library :=
  g.members.flatMap (·.package.libraries)

@[simp]
theorem declared_link : (link groups g).declared = g.declared := rfl

@[simp]
theorem declared_refit (config : Config) : (g.refit config).declared = g.declared := by
  simp only [declared, refit, List.flatMap_map]
  rfl

@[simp]
theorem name?_link : (link groups g).name? = g.name? := rfl

@[simp]
theorem name?_refit (config : Config) : (g.refit config).name? = g.name? := by
  simp only [name?, refit, List.head?_map, Option.map_map]
  rfl

/-! ## What a group knows before it is linked -/

/-- The table knows the libraries that the packages of the group name, and nothing else. -/
def KnowsDeclared (g : PackageGroup) : Prop :=
  ∃ app : Bool, g.libraries = g.declared.foldl (fun t l => t.addLibrary l.name l.buildId)
    { ownId := g.id, appAsLibrary := app }

theorem KnowsDeclared.addMember (h : g.KnowsDeclared) (cookie : Nat) (p : Package) :
    (g.addMember cookie p).KnowsDeclared := by
  obtain ⟨app, happ⟩ := h
  refine ⟨app, ?_⟩
  have hdeclared : (g.addMember cookie p).declared = g.declared ++ p.libraries := by
    simp [declared, PackageGroup.addMember]
  rw [hdeclared, List.foldl_append, id_addMember, ← happ]
  rfl

theorem libraries_of_mem_foldl_place (xs : List Assigned) (h : ∀ g ∈ groups, g.KnowsDeclared) :
    ∀ g ∈ xs.foldl place groups, g.KnowsDeclared := by
  induction xs generalizing groups with
  | nil => exact h
  | cons x xs ih =>
      refine ih (forall_mem_addTo ?_ (fun g hg => hg.addMember _ _) h)
      exact ⟨x.package.isDynamic && x.package.id == ResourceId.appPackage, rfl⟩

/-- The groups of some assets are linked from groups that know what their packages name. -/
theorem exists_unlinked (hg : g ∈ ofAssets assets) :
    ∃ all, ∃ g₀ ∈ all, g₀.KnowsDeclared ∧ g = link all g₀ ∧
      ofAssets assets = all.map (link all) := by
  have hall : ofAssets assets =
      ((assigned assets).foldl place []).map (link ((assigned assets).foldl place [])) := by
    unfold ofAssets
    rw [groups_foldl_add]
    rfl
  rw [hall] at hg
  obtain ⟨g₀, hg₀, rfl⟩ := List.mem_map.mp hg
  exact ⟨_, g₀, hg₀,
    libraries_of_mem_foldl_place _ (fun g hg => absurd hg List.not_mem_nil) g₀ hg₀, rfl, hall⟩

/-! ## What linking writes -/

/-- Ties the name of a group to its id. -/
def tie (t : LibraryTable) (other : PackageGroup) : LibraryTable :=
  match other.name? with
  | some name => t.mapName name other.id
  | none => t

theorem buildId?_tie {t : LibraryTable} {name : String} (other : PackageGroup) :
    (tie t other).buildId? name = t.buildId? name := by
  unfold tie
  split
  · exact LibraryTable.buildId?_mapName
  · rfl

/-- The slot of a build-time id that one name has is written by the groups with that name. -/
theorem lookup_ids_link {t : LibraryTable} {name : String} {buildId runtimeId : UInt8}
    (hname : ∀ other, t.buildId? other = some buildId ↔ other = name)
    (hsame : ∀ other ∈ groups, other.name? = some name → other.id = runtimeId)
    (hsome : t.ids.lookup buildId = some runtimeId ∨ ∃ other ∈ groups, other.name? = some name) :
    (groups.foldl tie t).ids.lookup buildId = some runtimeId := by
  induction groups generalizing t with
  | nil =>
      rcases hsome with hsome | ⟨_, hnone, _⟩
      · exact hsome
      · exact absurd hnone List.not_mem_nil
  | cons first groups ih =>
      obtain ⟨hfirst, hrest⟩ := List.forall_mem_cons.mp hsame
      refine ih (fun other => by rw [buildId?_tie, hname]) hrest ?_
      by_cases hnamed : first.name? = some name
      · refine .inl ?_
        unfold tie
        rw [hnamed]
        dsimp only
        rw [LibraryTable.lookup_ids_mapName, if_pos ((hname name).mpr rfl), hfirst hnamed]
      · -- a group with another name writes another slot
        have hkeeps : (tie t first).ids.lookup buildId = t.ids.lookup buildId := by
          unfold tie
          split
          · next other hother =>
            rw [LibraryTable.lookup_ids_mapName, if_neg]
            intro heq
            obtain rfl := (hname other).mp heq
            exact hnamed hother
          · rfl
        rw [hkeeps]
        refine hsome.imp_right ?_
        rintro ⟨other, hother, hothername⟩
        rcases List.mem_cons.mp hother with rfl | hother
        · exact absurd hothername hnamed
        · exact ⟨other, hother, hothername⟩

/-- The libraries that a group names have names and ids of their own, and no id is one that
does not name a library. -/
structure DeclaresApart (g : PackageGroup) : Prop where
  names : ∀ l ∈ g.declared, ∀ other ∈ g.declared, l.name = other.name → l = other
  buildIds : ∀ l ∈ g.declared, ∀ other ∈ g.declared, l.buildId = other.buildId → l = other
  unreserved : ∀ l ∈ g.declared, l.buildId ≠ 0 ∧ l.buildId ≠ ResourceId.appPackage

theorem DeclaresApart.of_declared_eq {other : PackageGroup} (h : g.DeclaresApart)
    (heq : other.declared = g.declared) : other.DeclaresApart := by
  constructor <;> rw [heq]
  exacts [h.names, h.buildIds, h.unreserved]

/-- A group knows a library that it names, and no other one with its id. -/
theorem KnowsDeclared.buildId?_eq_iff (h : g.KnowsDeclared) (hapart : g.DeclaresApart)
    {l : Library} (hl : l ∈ g.declared) (name : String) :
    g.libraries.buildId? name = some l.buildId ↔ name = l.name := by
  obtain ⟨app, happ⟩ := h
  rw [happ, LibraryTable.buildId?_foldl_addLibrary]
  constructor
  · intro hfound
    cases hfind : g.declared.reverse.find? (·.name == name) with
    | none =>
        rw [hfind] at hfound
        cases hfound
    | some other =>
        rw [hfind] at hfound
        have hmem := List.mem_reverse.mp (List.mem_of_find?_eq_some hfind)
        have hname : other.name = name := by simpa using List.find?_some hfind
        rw [← hname, hapart.buildIds other hmem l hl (Option.some.inj hfound)]
  · rintro rfl
    cases hfind : g.declared.reverse.find? (·.name == l.name) with
    | none =>
        have hnone := List.find?_eq_none.mp hfind l (List.mem_reverse.mpr hl)
        exact absurd (beq_self_eq_true l.name) hnone
    | some other =>
        have hmem := List.mem_reverse.mp (List.mem_of_find?_eq_some hfind)
        have hname : other.name = l.name := by simpa using List.find?_some hfind
        rw [hapart.names other hmem l hl hname]

/-! ## Ids of groups -/

theorem id_ne_zero_of_mem_assigned (hloaded : ∀ a ∈ assets, a.Loaded) {x : Assigned}
    (hx : x ∈ assigned assets) : x.id ≠ 0 := by
  obtain ⟨hmem, hown, hnext⟩ := of_mem_assignedFrom hx
  cases hdynamic : x.package.isDynamic with
  | true =>
      intro hzero
      have hlow := (hnext hdynamic).1
      rw [hzero] at hlow
      exact absurd hlow (by decide)
  | false =>
      obtain ⟨a, ha, hp⟩ := mem_packagesFrom hmem
      rw [hown hdynamic]
      exact ((hloaded a ha).arranged _ hp).1.id_ne_zero hdynamic

/-- No group of loaded packages has the id that stands for "unknown". -/
theorem id_ne_zero_of_mem_ofAssets (hloaded : ∀ a ∈ assets, a.Loaded) (hg : g ∈ ofAssets assets)
    {name : String} (hname : g.name? = some name) : g.id ≠ 0 := by
  have hmembers := (hold_ofAssets assets).members g hg
  obtain ⟨m, hm, -⟩ := Option.map_eq_some_iff.mp hname
  have hmem : m ∈ g.members := List.mem_of_mem_head? hm
  rw [hmembers] at hmem
  obtain ⟨x, hx, -⟩ := List.mem_map.mp hmem
  obtain ⟨hx, hid⟩ := List.mem_filter.mp hx
  rw [← beq_iff_eq.mp hid]
  exact id_ne_zero_of_mem_assigned hloaded hx

end PackageGroup

/-! ## References to a library -/

open PackageGroup

/-- An id of a library that the packages of a group name gets the run-time id of the only
group with that name, and keeps its type and its entry. -/
theorem Resources.runtimeId?_of_declared (r : Resources) {assets : List Asset}
    (hloaded : ∀ a ∈ assets, a.Loaded) {g target : PackageGroup}
    (hg : g ∈ (r.setAssets assets).groups) (hapart : g.DeclaresApart)
    {l : Library} (hl : l ∈ g.declared)
    (htarget : target ∈ (r.setAssets assets).groups) (hname : target.name? = some l.name)
    (honly : ∀ other ∈ (r.setAssets assets).groups, other.name? = some l.name → other = target)
    {id : ResourceId} (hid : ResourceId.package id = l.buildId) :
    ∃ found, g.libraries.runtimeId? id = some found ∧
      ResourceId.package found = target.id ∧
      ResourceId.type found = ResourceId.type id ∧
      ResourceId.entry found = ResourceId.entry id := by
  obtain ⟨g₀, hg₀, rfl⟩ := exists_of_mem_setAssets hg
  obtain ⟨all, unlinked, hunlinked, hknows, rfl, hall⟩ := exists_unlinked hg₀
  rw [declared_refit, declared_link] at hl
  have hmem : ∀ other ∈ all, (link all other).refit r.config ∈ (r.setAssets assets).groups := by
    intro other hother
    refine List.mem_map_of_mem (?_ : link all other ∈ ofAssets assets)
    rw [hall]
    exact List.mem_map_of_mem hother
  -- the slot of the library holds the id of its group
  have hlookup : (all.foldl tie unlinked.libraries).ids.lookup l.buildId = some target.id := by
    refine lookup_ids_link (hknows.buildId?_eq_iff (hapart.of_declared_eq (by simp)) hl) ?_ ?_
    · intro other hother hothername
      rw [← honly _ (hmem other hother) (by simpa using hothername)]
      exact id_link.symm
    · obtain ⟨t₀, ht₀, rfl⟩ := exists_of_mem_setAssets htarget
      rw [hall] at ht₀
      obtain ⟨other, hother, rfl⟩ := List.mem_map.mp ht₀
      exact .inr ⟨other, hother, by simpa using hname⟩
  have hknown : target.id ≠ 0 := by
    obtain ⟨t₀, ht₀, rfl⟩ := exists_of_mem_setAssets htarget
    exact id_ne_zero_of_mem_ofAssets (g := t₀) hloaded ht₀ (by simpa using hname)
  obtain ⟨hzero, happ⟩ := hapart.unreserved l (by simpa using hl)
  have hpackage := LibraryTable.runtimePackage?_of_lookup hzero happ hlookup hknown
  refine ⟨ResourceId.withPackage id target.id, ?_, ResourceId.package_make _ _ _,
    ResourceId.type_make _ _ _, ResourceId.entry_make _ _ _⟩
  unfold LibraryTable.runtimeId?
  rw [hid]
  exact congrArg (Option.map _) hpackage

/-- An application that was compiled against a library. -/
def client : TableBuild where
  calls := [.package ⟨0x7f, "app", [.library 0x10 "lib"]⟩]

/-- The library, which has no id of its own. -/
def provider : TableBuild where
  calls := [.package ⟨0, "lib", []⟩]

theorem withinLimits_client : client.WithinLimits := by decide +kernel

theorem withinLimits_provider : provider.WithinLimits := by decide +kernel

/-- An application in front of the library that it refers to. -/
def clientFirst : List Asset := [client.asset "app", provider.asset "lib"]

theorem loaded_clientFirst : ∀ a ∈ clientFirst, a.Loaded := by
  refine List.forall_mem_cons.mpr ⟨withinLimits_client.loaded_asset (by decide) _, ?_⟩
  exact List.forall_mem_singleton.mpr (withinLimits_provider.loaded_asset (by decide) _)

namespace Resources

theorem runtimeId?_of_declared_client :
    (∀ a ∈ clientFirst, a.Loaded) ∧
      ∃ g ∈ (({} : Resources).setAssets clientFirst).groups, g.id = 0x7f ∧ g.DeclaresApart ∧
        ∃ found, g.libraries.runtimeId? 0x10030005 = some found ∧
          ResourceId.package found = 2 ∧ ResourceId.type found = 3 ∧
          ResourceId.entry found = 5 := by
  obtain ⟨g, target, hgroups, hown, hdeclared, hother, hname, hid⟩ : ∃ g target,
      (({} : Resources).setAssets clientFirst).groups = [g, target] ∧ g.id = 0x7f ∧
        g.declared = [⟨0x10, "lib"⟩] ∧ g.name? = some "app" ∧ target.name? = some "lib" ∧
        target.id = 2 :=
    ⟨_, _, rfl, rfl, rfl, rfl, rfl, rfl⟩
  have hg : g ∈ (({} : Resources).setAssets clientFirst).groups := by
    rw [hgroups]
    exact List.mem_cons_self
  have hapart : g.DeclaresApart := by
    refine ⟨?_, ?_, ?_⟩ <;> rw [hdeclared]
    · simp
    · simp
    · decide
  have honly : ∀ other ∈ (({} : Resources).setAssets clientFirst).groups,
      other.name? = some "lib" → other = target := by
    rw [hgroups]
    simp [hother]
  refine ⟨loaded_clientFirst, g, hg, hown, hapart, ?_⟩
  have hlibrary : ResourceId.package 0x10030005 = 0x10 := rfl
  have hfound := runtimeId?_of_declared {} loaded_clientFirst hg hapart
    (hdeclared ▸ List.mem_singleton_self _) (by simp [hgroups]) hname honly hlibrary
  rwa [hid] at hfound

end Resources

end AppResources
