import AppResources.Proofs.BagFailure
import AppResources.Proofs.LibraryAssets
import AppResources.Proofs.RenamedBags

/-!
# An application as a library

An application that names no libraries and refers to nothing but itself and the framework can
be loaded by itself or as a shared library. As a library it answers as it does by itself, with
the package byte of the library in the place of its own: in the ids that it is asked for, in
the values and the keys of its answers, and in its errors.

The resources of the library are those of the application under the renaming, and so are the
known bags. Every lookup and every change of the configuration keeps that up.

## Main definitions

* `Asset.IsApp`: the applications that this is about.
* `Resources.asLibrary`, `Manager.asLibrary`: the same resources with the library.

## Main results

* `OfApp.find_asLibrary`, `OfApp.get_asLibrary`: resources are found alike.
* `OfApp.ascend_asLibrary`, `OfApp.bag_asLibrary`: chains of parents are climbed alike.
* `loadAsLibrary_renames`: all answers of the library are the renamed ones.
-/

namespace AppResources

/-! ## What is found -/

/-- The resources of an application as those of a library. -/
def Resources.asLibrary (r : Resources) : Resources where
  assets := r.assets.map .asLibrary
  groups := r.groups.map .asLibrary
  config := r.config

/-- A candidate in the package as a library. -/
def Candidate.asLibrary (c : Candidate) : Candidate := { c with member := c.member.asLibrary }

/-- A selected entry in the package as a library. -/
def Selection.asLibrary (s : Selection) : Selection :=
  { s with package := s.package.asLibrary, libraries := .ofLibrary }

namespace Candidate

theorem improve_asLibrary (request : Config) (m : GroupMember) (index : UInt16)
    (best : Option Candidate) (v : Variant) :
    improve request m.asLibrary index (best.map asLibrary) v =
      (improve request m index best v).map asLibrary := by
  have hwanted : ∀ current : Candidate,
      isReplacedBy request m.asLibrary.package.isOverlay current.asLibrary.variant v =
        isReplacedBy request m.package.isOverlay current.variant v := fun _ => rfl
  unfold improve
  cases best with
  | none => cases v.entry? index <;> rfl
  | some current =>
      simp only [Option.map_some, hwanted]
      split
      · cases v.entry? index <;> rfl
      · rfl

theorem foldl_improve_asLibrary (request : Config) (m : GroupMember) (index : UInt16)
    (variants : List Variant) (best : Option Candidate) :
    variants.foldl (improve request m.asLibrary index) (best.map asLibrary) =
      (variants.foldl (improve request m index) best).map asLibrary := by
  induction variants generalizing best with
  | nil => rfl
  | cons v variants ih => rw [List.foldl_cons, List.foldl_cons, improve_asLibrary, ih]

end Candidate

namespace Search

/-- The search through a library. -/
def asLibrary (s : Search) : Search := { s with best := s.best.map .asLibrary }

theorem visit_asLibrary (type : UInt8) (entry : UInt16) (isCurrent : Bool) (request : Config)
    (search : Search) (m : GroupMember) :
    visit type entry isCurrent request search.asLibrary m.asLibrary =
      (visit type entry isCurrent request search m).asLibrary := by
  have hlocate : m.asLibrary.locate? type entry = m.locate? type entry := rfl
  unfold visit
  rw [hlocate]
  split
  · rfl
  · exact congrArg (Search.mk · _) (Candidate.foldl_improve_asLibrary ..)

theorem foldl_visit_asLibrary (type : UInt8) (entry : UInt16) (isCurrent : Bool)
    (request : Config) (members : List GroupMember) (search : Search) :
    (members.map GroupMember.asLibrary).foldl (visit type entry isCurrent request)
        search.asLibrary =
      (members.foldl (visit type entry isCurrent request) search).asLibrary := by
  induction members generalizing search with
  | nil => rfl
  | cons m members ih => rw [List.map_cons, List.foldl_cons, List.foldl_cons, visit_asLibrary, ih]

end Search

namespace Resources

open ResourceId (toLibrary IsNear)

variable {r : Resources} {id : ResourceId}

/-- The resources of an application by itself, which refers to nothing but itself and the
framework. -/
structure OfApp (r : Resources) : Prop where
  alone : ∃ g, r.groups = [g] ∧ g.libraries = .ofApp
  refers : ∀ g ∈ r.groups, ∀ m ∈ g.members, ∀ e ∈ m.package.stored, e.RefersWithin
  fitted : ∃ config, ∀ g ∈ r.groups, ∀ m ∈ g.members,
    m.fitting = GroupMember.fittingOf m.package config

theorem OfApp.group?_asLibrary (h : r.OfApp) (hid : IsNear id) :
    r.asLibrary.group? (ResourceId.package (toLibrary id)) =
      (r.group? (ResourceId.package id)).map .asLibrary := by
  obtain ⟨g, hgroups, hlibraries⟩ := h.alone
  have hid₁ : g.id = ResourceId.appPackage := congrArg LibraryTable.ownId hlibraries
  have hid₂ : g.asLibrary.id = ResourceId.libraryPackage := rfl
  unfold group? asLibrary
  rw [hgroups, List.map_singleton, List.find?_singleton, List.find?_singleton, hid₁, hid₂]
  rcases hid with hid | hid
  · rw [ResourceId.toLibrary_of_ne (by rw [hid]; decide), hid]
    rfl
  · have hpackage : ResourceId.package (toLibrary id) = ResourceId.libraryPackage := by
      rw [ResourceId.toLibrary_of_app hid]
      exact ResourceId.package_make ..
    rw [hpackage, hid]
    rfl

/-- The library finds what the application finds. -/
theorem OfApp.find_asLibrary (h : r.OfApp) (hid : IsNear id) (density : UInt16) :
    r.asLibrary.find (toLibrary id) density = libraryAnswer .asLibrary (r.find id density) := by
  have hrequest : r.asLibrary.requestFor density = r.requestFor density := rfl
  unfold find
  rw [ResourceId.isValid_toLibrary, h.group?_asLibrary hid, ResourceId.type_toLibrary,
    ResourceId.entry_toLibrary, hrequest]
  split
  · cases r.group? (ResourceId.package id) with
    | none => rfl
    | some g =>
        have hsearch := Search.foldl_visit_asLibrary (ResourceId.type id) (ResourceId.entry id)
          (density == 0 || density == r.config.density) (r.requestFor density) g.members {}
        have hempty : Search.asLibrary {} = {} := rfl
        have hmembers : g.asLibrary.members = g.members.map .asLibrary := rfl
        have hconfig : r.asLibrary.config = r.config := rfl
        rw [hempty] at hsearch
        dsimp only [Option.map_some]
        rw [hmembers, hconfig, hsearch]
        generalize g.members.foldl (Search.visit _ _ _ _) {} = search
        obtain ⟨best, axes⟩ := search
        cases best <;> rfl
  · rfl

/-- What is found refers to the application and the framework, and its libraries are those of
the application. -/
theorem OfApp.of_find (h : r.OfApp) {density : UInt16} {s : Selection}
    (hfind : r.find id density = .ok s) : s.libraries = .ofApp ∧ s.entry.RefersWithin := by
  obtain ⟨config, hfitted⟩ := h.fitted
  obtain ⟨g, hg, hlibraries, m, hm, hstored⟩ := stored_of_find hfitted hfind
  refine ⟨?_, h.refers g hg m hm s.entry hstored⟩
  obtain ⟨alone, hgroups, happ⟩ := h.alone
  rw [hgroups, List.mem_singleton] at hg
  rw [hlibraries, hg, happ]

/-- The library has the values of the application. -/
theorem OfApp.get_asLibrary (h : r.OfApp) (hid : IsNear id) (allowBag : Bool) (density : UInt16) :
    r.asLibrary.get (toLibrary id) allowBag density =
      libraryAnswer .toLibrary (r.get id allowBag density) := by
  unfold get
  rw [h.find_asLibrary hid]
  cases hfind : r.find id density with
  | error e => rfl
  | ok s =>
      obtain ⟨hlibraries, hrefers⟩ := h.of_find hfind
      obtain ⟨cookie, entry, config, axes, package, typeSlot, libraries⟩ := s
      obtain rfl : libraries = .ofApp := hlibraries
      cases entry with
      | plain key flags v =>
          obtain ⟨found, happ, hlibrary⟩ := LibraryTable.runtimeValue?_toLibrary hrefers
          simp [libraryAnswer, Selection.asLibrary, Except.map, Except.mapError, happ, hlibrary,
            Resolved.toLibrary]
      | bag key flags parent items =>
          cases allowBag <;> rfl

end Resources

/-! ## Bags with all they inherit -/

namespace Resources

open ResourceId (toLibrary IsNear)

variable {r : Resources} {id : ResourceId} {own : OwnBag} {cache : BagCache}

/-- A bag of the application refers to it and the framework. -/
theorem OfApp.isWithin (h : r.OfApp) (hown : r.ownBag id = .ok own) : own.IsWithin := by
  obtain ⟨s, key, flags, parent, items, entries, hfind, hentry, hitems, rfl⟩ :=
    exists_of_ownBag hown
  obtain ⟨hlibraries, hrefers⟩ := h.of_find hfind
  rw [hentry] at hrefers
  rw [hlibraries] at hitems ⊢
  obtain ⟨entries', hentries, hkeys, -⟩ := mapM_runtimeItem_toLibrary hrefers.2 id s.cookie
  obtain rfl := Except.ok.inj (hitems.symm.trans hentries)
  refine ⟨.inr ?_, (runtimeParent_toLibrary hrefers.1).1, hkeys⟩
  -- the only group is that of the application
  obtain ⟨-, g, hgroup⟩ := group?_of_find hfind
  obtain ⟨alone, hgroups, happ⟩ := h.alone
  have hmem := List.mem_of_find?_eq_some hgroup
  rw [hgroups, List.mem_singleton] at hmem
  have hsame := List.find?_some hgroup
  rw [hmem] at hsame
  rw [← beq_iff_eq.mp hsame]
  exact congrArg LibraryTable.ownId happ

/-- The library has the bags of the application as they are written. -/
theorem OfApp.ownBag_asLibrary (h : r.OfApp) (hid : IsNear id) :
    r.asLibrary.ownBag (toLibrary id) = libraryAnswer .toLibrary (r.ownBag id) := by
  unfold ownBag
  rw [h.find_asLibrary hid]
  cases hfind : r.find id 0 with
  | error e => rfl
  | ok s =>
      obtain ⟨hlibraries, hrefers⟩ := h.of_find hfind
      obtain ⟨cookie, entry, config, axes, package, typeSlot, libraries⟩ := s
      obtain rfl : libraries = .ofApp := hlibraries
      cases entry with
      | plain key flags v => rfl
      | bag key flags parent items =>
          obtain ⟨entries, happ, -, hlibrary⟩ := mapM_runtimeItem_toLibrary hrefers.2 id cookie
          have hparent := (runtimeParent_toLibrary hrefers.1).2
          dsimp only [libraryAnswer, Except.map, Except.mapError, Selection.asLibrary]
          rw [happ, hlibrary, hparent]
          rfl

/-- The library climbs to the bags of the application. -/
theorem OfApp.ascend_asLibrary (h : r.OfApp) (hcache : cache.IsWithin) (fuel : Nat)
    {below : List OwnBag} (hbelow : ∀ b ∈ below, b.IsWithin) (hid : IsNear id) :
    r.asLibrary.ascend cache.toLibrary fuel (below.map .toLibrary) (toLibrary id) =
      libraryAnswer .toLibrary (r.ascend cache fuel below id) := by
  induction fuel generalizing below id with
  | zero => rfl
  | succ fuel ih =>
      rw [ascend, ascend, h.ownBag_asLibrary hid]
      cases hown : r.ownBag id with
      | error e => rfl
      | ok own =>
          have hwithin := h.isWithin hown
          have hchain : ∀ b ∈ own :: below, b.IsWithin :=
            List.forall_mem_cons.mpr ⟨hwithin, hbelow⟩
          dsimp only [libraryAnswer, Except.map, Except.mapError]
          rcases hwithin.parent with hroot | hnear
          · have hzero : own.toLibrary.parent = 0 := congrArg toLibrary hroot
            rw [if_pos hzero, if_pos hroot]
            rfl
          · have hne : own.toLibrary.parent ≠ 0 := fun hzero => hnear.ne_zero
              ((ResourceId.toLibrary_inj (.inr hnear) (.inl rfl)).mp hzero)
            have hspan := OwnBag.span_toLibrary hchain hnear
            have hlookup := BagCache.lookup_toLibrary hcache hnear
            have hparent : own.toLibrary.parent = toLibrary own.parent := rfl
            rw [if_neg hne, if_neg hnear.ne_zero, hparent, ← List.map_cons, hspan, hlookup]
            cases (own :: below).span (·.id != own.parent) with
            | mk before rest =>
                cases rest with
                | cons last heirs => simp [Ancestry.toLibrary]
                | nil =>
                    cases cache.lookup own.parent with
                    | some known => rfl
                    | none => exact ih hchain hnear

/-- The library has the bags of the application, and knows them then. -/
theorem OfApp.bag_asLibrary (h : r.OfApp) (hcache : cache.IsWithin) (hid : IsNear id) :
    r.asLibrary.bag (toLibrary id) cache.toLibrary =
        (libraryAnswer .toLibrary (r.bag id cache).1, (r.bag id cache).2.toLibrary) ∧
      (r.bag id cache).2.IsWithin := by
  have hascend := h.ascend_asLibrary hcache idCount (fun _ hb => absurd hb List.not_mem_nil) hid
  rw [List.map_nil] at hascend
  unfold bag
  rw [BagCache.lookup_toLibrary hcache hid, hascend]
  cases cache.lookup id with
  | some known => exact ⟨rfl, hcache⟩
  | none =>
      cases hchain : r.ascend cache idCount [] id with
      | error e => exact ⟨rfl, hcache⟩
      | ok chain =>
          obtain ⟨halone, hheirs, hknown⟩ :=
            ascend_sources hchain fun _ hb => absurd hb List.not_mem_nil
          have hwithin : chain.IsWithin := by
            refine ⟨fun b hb => h.isWithin (halone b hb), fun b hb => h.isWithin (hheirs b hb), ?_⟩
            intro known hmem
            obtain ⟨parent, hparent⟩ := hknown known hmem
            exact (hcache _ hparent).2
          obtain ⟨hflatten, hremembered⟩ := Ancestry.flatten_toLibrary hwithin hcache
          dsimp only [libraryAnswer, Except.map, Except.mapError]
          rw [hflatten]
          cases hflat : chain.flatten cache with
          | mk found cache' =>
              rw [hflat] at hremembered
              cases found <;> exact ⟨rfl, hremembered⟩

end Resources

/-! ## Sessions -/

/-- A package is that of an application which names no libraries and refers to nothing but
itself and the framework. -/
structure Package.IsApp (p : Package) : Prop where
  id : p.id = ResourceId.appPackage
  libraries : p.libraries = []
  refers : ∀ e ∈ p.stored, e.RefersWithin

/-- An asset has one package, and this is that of an application. -/
def Asset.IsApp (a : Asset) : Prop := ∃ p, a.table.packages = [p] ∧ p.IsApp

/-- The same call with renamed ids. -/
def Call.toLibrary : Call → Call
  | .change c => .change c
  | .bag id => .bag (ResourceId.toLibrary id)

/-- A call keeps the assets and asks for bags of the application at most. -/
def Call.StaysInApp : Call → Prop
  | .change (.assets _) => False
  | .change (.config _) => True
  | .bag id => ResourceId.package id = ResourceId.appPackage

namespace Resources

variable {r : Resources}

/-- The library is configured like the application. -/
theorem setConfig_asLibrary (r : Resources) (config : Config) :
    r.asLibrary.setConfig config = (r.setConfig config).asLibrary := by
  have hgroup : ∀ g : PackageGroup, g.asLibrary.refit config = (g.refit config).asLibrary := by
    intro g
    simp [PackageGroup.asLibrary, PackageGroup.refit, GroupMember.refit, GroupMember.asLibrary,
      GroupMember.fittingOf, Package.asLibrary]
  have hconfig : r.asLibrary.config = r.config := rfl
  unfold setConfig
  rw [hconfig]
  split
  · rfl
  · simp [refit, asLibrary, hgroup]

theorem OfApp.setConfig (h : r.OfApp) (config : Config) : (r.setConfig config).OfApp := by
  obtain ⟨g, hgroups, hlibraries⟩ := h.alone
  unfold Resources.setConfig
  split
  · exact ⟨h.alone, h.refers, h.fitted⟩
  · refine ⟨⟨g.refit config, ?_, hlibraries⟩, ?_, config, ?_⟩
    · simp [refit, hgroups]
    · intro g' hg' m' hm'
      obtain ⟨g, hg, rfl⟩ := List.mem_map.mp hg'
      obtain ⟨m, hm, rfl⟩ := List.mem_map.mp hm'
      exact h.refers g hg m hm
    · intro g' hg' m' hm'
      obtain ⟨g, hg, rfl⟩ := List.mem_map.mp hg'
      exact PackageGroup.fitting_of_mem_refit hg' hm'

end Resources

namespace Manager

open ResourceId (toLibrary)

variable {m : Manager} {a : Asset}

/-- The manager of an application as that of a library. -/
def asLibrary (m : Manager) : Manager where
  id := m.id
  resources := m.resources.asLibrary
  bags := BagCache.toLibrary m.bags

/-- A manager of an application by itself. -/
structure OfApp (m : Manager) : Prop where
  resources : m.resources.OfApp
  bags : BagCache.IsWithin m.bags

/-- A manager is given an application as a library. -/
theorem setAssets_asLibrary (m : Manager) (happ : a.IsApp)
    (hstatic : ∀ p ∈ a.table.packages, p.isDynamic = (p.id == 0)) :
    (m.setAssets [a]).OfApp ∧ m.setAssets [a.asLibrary] = (m.setAssets [a]).asLibrary := by
  obtain ⟨p, hpackages, hp⟩ := happ
  have hdynamic : p.isDynamic = false := by
    rw [hstatic p (by rw [hpackages]; exact List.mem_singleton_self p), hp.id]
    rfl
  have hlibrary : p.asLibrary.isDynamic = true := by
    simp [Package.asLibrary, hp.id]
  have hrenamed : a.asLibrary.table.packages = [p.asLibrary] := by
    simp [Asset.asLibrary, Table.asLibrary, hpackages]
  have hgroups : PackageGroup.ofAssets [a] = [⟨[⟨0, p, []⟩], .ofApp⟩] := by
    rw [PackageGroup.ofAssets_singleton hpackages hp.libraries, hdynamic, hp.id]
    rfl
  have hasLibrary : PackageGroup.ofAssets [a.asLibrary] =
      [⟨[⟨0, p.asLibrary, []⟩], .ofLibrary⟩] := by
    have hid : p.asLibrary.id = ResourceId.appPackage := hp.id
    rw [PackageGroup.ofAssets_singleton hrenamed hp.libraries, hlibrary, hid]
    rfl
  unfold Manager.setAssets Resources.setAssets
  rw [hgroups, hasLibrary]
  constructor
  · refine ⟨⟨⟨_, rfl, rfl⟩, ?_, m.resources.config, ?_⟩,
      fun _ he => absurd he List.not_mem_nil⟩
    · intro g hg m' hm
      obtain rfl := List.mem_singleton.mp hg
      obtain rfl := List.mem_singleton.mp hm
      exact hp.refers
    · intro g hg m' hm
      obtain rfl := List.mem_singleton.mp hg
      obtain rfl := List.mem_singleton.mp hm
      rfl
  · rfl

theorem OfApp.bag (h : m.OfApp) {id : ResourceId}
    (hid : ResourceId.package id = ResourceId.appPackage) :
    (m.asLibrary.bag (toLibrary id)).1 = libraryAnswer .toLibrary (m.bag id).1 ∧
      (m.asLibrary.bag (toLibrary id)).2 = (m.bag id).2.asLibrary ∧ (m.bag id).2.OfApp := by
  obtain ⟨hanswer, hwithin⟩ := h.resources.bag_asLibrary h.bags (.inr hid)
  refine ⟨congrArg Prod.fst hanswer, ?_, h.resources, hwithin⟩
  exact congrArg (Manager.mk m.id m.resources.asLibrary) (congrArg Prod.snd hanswer)

/-- One call on the library is the call on the application. -/
theorem OfApp.perform (h : m.OfApp) {call : Call} (hcall : call.StaysInApp) :
    m.asLibrary.perform call.toLibrary = (m.perform call).asLibrary ∧ (m.perform call).OfApp := by
  cases call with
  | bag id => exact (h.bag hcall).2
  | change change =>
      cases change with
      | assets assets => exact hcall.elim
      | config config =>
          refine ⟨?_, h.resources.setConfig config,
            fun e he => h.bags e (List.mem_filter.mp he).1⟩
          have hbags : ∀ changed : Axes,
              (BagCache.toLibrary m.bags).filter (fun e => !e.2.axes.intersects changed) =
                BagCache.toLibrary (m.bags.filter fun e => !e.2.axes.intersects changed) :=
            fun _ => List.filter_map
          exact congr (congrArg (Manager.mk m.id) (m.resources.setConfig_asLibrary config))
            (hbags _)

theorem OfApp.foldl_perform (h : m.OfApp) {calls : List Call}
    (hcalls : ∀ call ∈ calls, call.StaysInApp) :
    (calls.map Call.toLibrary).foldl Manager.perform m.asLibrary =
        (calls.foldl Manager.perform m).asLibrary ∧
      (calls.foldl Manager.perform m).OfApp := by
  induction calls generalizing m with
  | nil => exact ⟨rfl, h⟩
  | cons call calls ih =>
      obtain ⟨hcall, hrest⟩ := List.forall_mem_cons.mp hcalls
      obtain ⟨hperform, hnext⟩ := h.perform hcall
      rw [List.map_cons, List.foldl_cons, List.foldl_cons, hperform]
      exact ih hnext hrest

/-- An application that is loaded as a library answers like the application by itself, with the
package byte of the library in the place of its own: for every id of the application, in every
configuration and density, and after any lookups. -/
theorem loadAsLibrary_renames {path : String} {b : ByteArray} {system : Bool}
    (hload : Asset.load path b system = .ok a) (happ : a.IsApp) :
    ∃ library, Asset.loadAsLibrary path b system = .ok library ∧
      ∀ (m : Manager) (calls : List Call), (∀ call ∈ calls, call.StaysInApp) →
        let m₁ := calls.foldl perform (m.setAssets [a])
        let m₂ := (calls.map Call.toLibrary).foldl perform (m.setAssets [library])
        (∃ g, m₂.resources.groups = [g] ∧ g.id = ResourceId.libraryPackage) ∧
          ∀ id, ResourceId.package id = ResourceId.appPackage →
            (∀ allowBag density, m₂.resources.get (toLibrary id) allowBag density =
              libraryAnswer .toLibrary (m₁.resources.get id allowBag density)) ∧
            (m₂.bag (toLibrary id)).1 = libraryAnswer .toLibrary (m₁.bag id).1 := by
  refine ⟨a.asLibrary, by rw [Asset.loadAsLibrary_eq, hload]; rfl, ?_⟩
  intro m calls hcalls m₁ m₂
  have hstatic : ∀ p ∈ a.table.packages, p.isDynamic = (p.id == 0) := by
    obtain ⟨table, htable, rfl⟩ := Asset.of_loadWith hload
    exact Table.forall_packages_of_load (fun _ _ => Package.isDynamic_of_load) htable
  obtain ⟨hstart, hlibrary⟩ := setAssets_asLibrary m happ hstatic
  obtain ⟨hsession, happ₁⟩ := hstart.foldl_perform hcalls
  have hm₂ : m₂ = m₁.asLibrary := by
    show (calls.map Call.toLibrary).foldl perform (m.setAssets [a.asLibrary]) = _
    rw [hlibrary, hsession]
  rw [hm₂]
  constructor
  · obtain ⟨g, hgroups, -⟩ := happ₁.resources.alone
    exact ⟨g.asLibrary, by simp [asLibrary, Resources.asLibrary, m₁, hgroups], rfl⟩
  · intro id hid
    exact ⟨happ₁.resources.get_asLibrary (.inr hid), (happ₁.bag hid).1⟩

/-- An application with two styles, the second one under the first, and a reference to the first.
Some of them are named as in a library. -/
def ownStyles : TableBuild where
  calls := [.package ⟨0x7f, "app", [
    .entry 1 0 {} (.bag 0 0 0 [⟨0x00000001, ⟨.reference, 0x7f020000⟩⟩, ⟨0x01010000, ⟨.decimal, 1⟩⟩,
      ⟨0x7f030000, ⟨.dynamicReference, 0x00010001⟩⟩]),
    .entry 1 1 {} (.bag 0 0 0x00010000 [⟨0x00030000, ⟨.attribute, 0x01010000⟩⟩]),
    .entry 2 0 {} (.plain 0 0 ⟨.dynamicReference, 0x00010000⟩)]⟩]

theorem withinLimits_ownStyles : ownStyles.WithinLimits := by decide +kernel

/-- As a library the application has the lower style and the reference under its new ids. -/
theorem loadAsLibrary_renames_ownStyles :
    Asset.load "app" ownStyles.source.encode.toByteArray false = .ok (ownStyles.asset "app") ∧
      (ownStyles.asset "app").IsApp ∧
      ∃ library, Asset.loadAsLibrary "app" ownStyles.source.encode.toByteArray false = .ok library ∧
        (((fresh 0 [library] .default).bag 0x02010001).1.map fun b =>
          b.entries.map fun e => (e.key, e.value, e.style)) = .ok
            [(0x00000001, ⟨.reference, 0x02020000⟩, 0x02010000),
              (0x01010000, ⟨.decimal, 1⟩, 0x02010000),
              (0x02030000, ⟨.attribute, 0x01010000⟩, 0x02010001)] ∧
        ((fresh 0 [library] .default).resources.get 0x02020000 false 0).map (·.value) =
          .ok ⟨.reference, 0x02010000⟩ := by
  have hload := withinLimits_ownStyles.load_asset (by decide) "app"
  have happ : (ownStyles.asset "app").IsApp := ⟨_, rfl, rfl, rfl, by decide +kernel⟩
  obtain ⟨library, hlibrary, hall⟩ := loadAsLibrary_renames hload happ
  obtain ⟨-, hanswers⟩ := hall (({ id := 0 } : Manager).setConfig .default) []
    fun _ hcall => absurd hcall List.not_mem_nil
  refine ⟨hload, happ, library, hlibrary, ?_, ?_⟩
  · have hbag := (hanswers 0x7f010001 (by decide)).2
    refine (congrArg (Except.map _) hbag).trans ?_
    decide +kernel
  · have hget := (hanswers 0x7f020000 (by decide)).1 false 0
    refine (congrArg (Except.map _) hget).trans ?_
    decide +kernel

end Manager

end AppResources
