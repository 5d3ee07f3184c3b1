import AppResources.Proofs.LoadedAssets
import AppResources.Proofs.Origin
import AppResources.Proofs.Reconfiguration
import AppResources.Proofs.RuntimeIds

/-!
# Assets that are added

Assets at the end of a list leave a resource alone if their packages have nothing to do with
it: they are no shared libraries, and each of them has another id than the package of the
resource, or else is an overlay whose maps do not name the resource.

Packages of other ids make groups of their own or join other groups. An overlay of the package
joins the group of the resource, behind all that was there before, and the search passes it
over, because a type of an overlay stands in the slot of the type that it replaces. No id of a
shared library changes either, since these are counted from the front.

## Main definitions

* `Idmap.Replaces`: whether overlay maps name an entry of a type.
* `Asset.LeavesAlone`: whether an asset has nothing to do with a resource.

## Main results

* `Asset.Loaded.replacing`: where the types of an overlay stand.
* `Setting.members_of_group?`: which packages a group has.
* `Manager.find_append_assets`: what is found does not change when such assets are added.
-/

namespace AppResources

/-! ## Where the types of an overlay stand -/

/-- Whether overlay maps name an entry of a type of the target. -/
def Idmap.Replaces (m : Idmap) (type : UInt8) (entry : UInt16) : Prop :=
  ∃ map ∈ m.maps, map.targetType.toNat = type.toNat ∧ (map.lookup? entry).isSome = true

instance (m : Idmap) (type : UInt8) (entry : UInt16) : Decidable (m.Replaces type entry) := by
  unfold Idmap.Replaces
  infer_instance

namespace TypeSpec

variable {m : Idmap} {idmap : Option Idmap} {s : TypeSpec} {specs found : List TypeSpec}

/-- A type has the map that there is for its id. -/
def Mapped (idmap : Option Idmap) (s : TypeSpec) : Prop :=
  s.overlay = idmap.bind (·.mapOf? s.id)

theorem mapped_addVariant? {v : Variant} (hspecs : ∀ s ∈ specs, s.Mapped idmap)
    (h : addVariant? v specs = some found) : ∀ s ∈ found, s.Mapped idmap := by
  induction specs generalizing found with
  | nil => cases h
  | cons s rest ih =>
      obtain ⟨hs, hrest⟩ := List.forall_mem_cons.mp hspecs
      simp only [addVariant?] at h
      split at h
      · cases h
        exact List.forall_mem_cons.mpr ⟨hs, hrest⟩
      · obtain ⟨tail, htail, rfl⟩ := Option.map_eq_some_iff.mp h
        exact List.forall_mem_cons.mpr ⟨hs, ih hrest htail⟩

/-- A type in a slot replaces the type that belongs there. -/
def Replacing (m : Idmap) (slots : List (Option TypeSpec)) : Prop :=
  ∀ i s, slots[i]? = some (some s) →
    ∃ map ∈ m.maps, s.overlay = some map ∧ map.targetType.toNat = i + 1

theorem replacing_place {slots slots' : List (Option TypeSpec)} (hs : s.Mapped (some m))
    (hslots : Replacing m slots) (h : place true slots s = .ok slots') :
    Replacing m slots' := by
  unfold place at h
  split at h
  · next i hslot =>
    cases h
    intro j t ht
    rw [getElem?_placeAt_iff] at ht
    split at ht
    · next heq =>
      subst heq ht
      unfold slot? at hslot
      split at hslot
      · next map hmap =>
        have hmem : map ∈ m.maps := List.mem_of_find?_eq_some (hs.symm.trans hmap)
        refine ⟨map, hmem, hmap, ?_⟩
        unfold Bytes.minus at hslot
        split at hslot
        · obtain rfl := Option.some.inj (Except.ok.inj hslot)
          omega
        · cases hslot
      · cases hslot
    · exact hslots j t ht
  · cases h
    exact hslots
  · cases h

end TypeSpec

theorem PackageContent.mapped_addChunk {header : PackageHeader} {idmap : Option Idmap}
    {start : Nat} {c : Chunk} {found found' : PackageContent}
    (hfound : ∀ s ∈ found.specs, s.Mapped idmap)
    (h : addChunk idmap header start found c = .ok found') :
    ∀ s ∈ found'.specs, s.Mapped idmap := by
  have hstep := typeStep_addChunk h
  generalize found'.specs = specs' at hstep ⊢
  cases hstep with
  | declared =>
      intro s hs
      rcases TypeSpec.of_mem_insertById hs with rfl | hs
      · rfl
      · exact hfound s hs
  | repeated | other => exact hfound
  | variant _ _ hadd => exact TypeSpec.mapped_addVariant? hfound hadd

theorem Package.replacing_of_load {c : Chunk} {mode : LoadMode} {m : Idmap} {p : Package}
    (hmode : mode.idmap = some m) (h : load c mode = .ok p) : TypeSpec.Replacing m p.slots := by
  obtain ⟨header, found, slots, hmade, rfl⟩ := load_eq_ok_iff.mp h
  have hfold := hmade.content
  have hslots := hmade.slots
  rw [hmode] at hfold hslots
  have hmapped : ∀ s ∈ found.specs, s.Mapped (some m) :=
    of_foldlM_eq_ok (I := fun found => ∀ s ∈ found.specs, s.Mapped (some m))
      (fun s hs => absurd hs List.not_mem_nil)
      (fun _ _ _ _ => PackageContent.mapped_addChunk) hfold
  exact of_foldlM_eq_ok (I := TypeSpec.Replacing m) (fun i s hs => by simp at hs)
    (fun _ s hs _ => TypeSpec.replacing_place (hmapped s hs)) hslots

/-- A type of a loaded overlay stands in the slot of the type that it replaces. -/
theorem Asset.Loaded.replacing {a : Asset} (h : a.Loaded) {m : Idmap} (hm : a.idmap = some m) :
    ∀ p ∈ a.table.packages, TypeSpec.Replacing m p.slots := by
  have hwith : ∀ (path : String) (b : ByteArray) (mode : LoadMode),
      loadWith path b mode = .ok a → ∀ p ∈ a.table.packages, TypeSpec.Replacing m p.slots := by
    intro path b mode hload
    obtain ⟨table, htable, rfl⟩ := of_loadWith hload
    exact Table.forall_packages_of_load (fun _ _ => Package.replacing_of_load hm) htable
  cases h with
  | plain hload | library hload => exact hwith _ _ _ hload
  | overlay hload =>
      unfold loadOverlay at hload
      split at hload
      · exact hwith _ _ _ hload
      · cases hload
  | empty path => cases hm

/-! ## Assets that leave a resource alone -/

/-- The packages of an asset keep their ids, and each has another one than the package of a
resource or is an overlay whose maps do not name the resource. -/
structure Asset.LeavesAlone (a : Asset) (id : ResourceId) : Prop where
  static : ∀ p ∈ a.table.packages, p.isDynamic = false
  apart : ∀ p ∈ a.table.packages, p.id ≠ ResourceId.package id ∨
    p.typeIdOffset = 0 ∧
      ∃ m ∈ a.idmap, ¬ m.Replaces (ResourceId.type id) (ResourceId.entry id)

/-- A package of such an asset in the group of the resource has no entry for it. -/
theorem Asset.LeavesAlone.locate?_eq_none {a : Asset} {id : ResourceId} (h : a.LeavesAlone id)
    (hloaded : a.Loaded) {m : GroupMember} (hm : m.package ∈ a.table.packages)
    (hid : m.package.id = ResourceId.package id) :
    m.locate? (ResourceId.type id) (ResourceId.entry id) = none := by
  obtain hother | ⟨hoffset, idmap, hidmap, hnone⟩ := h.apart m.package hm
  · exact absurd hid hother
  · unfold GroupMember.locate?
    rw [hoffset]
    dsimp only
    split
    · rfl
    · next htype =>
      split
      · rfl
      · next s hspec =>
        have hslot : m.package.slots[(ResourceId.type id).toNat - 1]? = some (some s) :=
          Package.spec?_eq_some_iff.mp hspec
        obtain ⟨map, hmap, hoverlay, htarget⟩ := hloaded.replacing hidmap _ hm _ s hslot
        rw [hoverlay]
        dsimp only
        cases hlookup : map.lookup? (ResourceId.entry id) with
        | none => rfl
        | some own =>
            have hone : ¬ (ResourceId.type id).toNat < 0 + 1 := htype
            refine absurd ⟨map, hmap, ?_, ?_⟩ hnone
            · omega
            · rw [hlookup]
              rfl

/-! ## Groups with more packages -/

namespace Setting

open PackageGroup

variable {s : Setting} {b : UInt8} {g : PackageGroup}

/-- The group with an id has the packages that were given this id. -/
theorem members_of_group? (h : s.resources.group? b = some g) :
    g.members = ((assigned s.assets).filter (·.id == b)).map fun x => x.member.refit s.fitted := by
  obtain ⟨g₀, hg₀, rfl⟩ := List.mem_map.mp (List.mem_of_find?_eq_some h)
  have hid := List.find?_some h
  obtain rfl : g₀.id = b := beq_iff_eq.mp hid
  show g₀.members.map _ = _
  rw [(hold_ofAssets s.assets).members g₀ hg₀, List.map_map]
  rfl

/-- There is a group for every package that was given an id. -/
theorem exists_group? {x : Assigned} (hx : x ∈ assigned s.assets) :
    ∃ g, s.resources.group? x.id = some g := by
  obtain ⟨g₀, hg₀, hid⟩ := List.mem_map.mp ((hold_ofAssets s.assets).grouped x hx)
  refine Option.isSome_iff_exists.mp (List.find?_isSome.mpr ⟨g₀.refit s.fitted, ?_, ?_⟩)
  · exact List.mem_map_of_mem hg₀
  · exact beq_iff_eq.mpr hid

/-- The packages of added assets that keep their ids come last. -/
theorem assigned_append {assets more : List Asset}
    (hstatic : ∀ a ∈ more, ∀ p ∈ a.table.packages, p.isDynamic = false) :
    assigned (assets ++ more) =
      assigned assets ++ (packagesFrom assets.length more).map Assigned.own := by
  obtain ⟨later, hlater⟩ := exists_assignedFrom_append firstLibraryId (packagesFrom 0 assets)
  have hmore : ∀ e ∈ packagesFrom assets.length more, e.2.isDynamic = false := by
    intro e he
    obtain ⟨a, ha, hp⟩ := mem_packagesFrom_iff.mp ⟨e.1, he⟩
    exact hstatic a ha e.2 hp
  unfold assigned
  rw [packagesFrom_append, hlater, Nat.zero_add, assignedFrom_of_static hmore]

/-- The group of added assets has the old packages in front of the added ones. -/
theorem members_of_group?_append {assets more : List Asset} {config fitted : Config}
    {g' : PackageGroup} (hstatic : ∀ a ∈ more, ∀ p ∈ a.table.packages, p.isDynamic = false)
    (hg : (⟨assets, config, fitted⟩ : Setting).resources.group? b = some g)
    (hg' : (⟨assets ++ more, config, fitted⟩ : Setting).resources.group? b = some g') :
    ∃ added, g'.members = g.members ++ added ∧
      ∀ m ∈ added, m.package.id = b ∧ ∃ a ∈ more, m.package ∈ a.table.packages := by
  rw [members_of_group? hg, members_of_group? hg', assigned_append hstatic, List.filter_append,
    List.map_append]
  refine ⟨_, rfl, fun m hm => ?_⟩
  obtain ⟨x, hx, rfl⟩ := List.mem_map.mp hm
  obtain ⟨hx, hid⟩ := List.mem_filter.mp hx
  obtain ⟨e, he, rfl⟩ := List.mem_map.mp hx
  exact ⟨beq_iff_eq.mp hid, mem_packagesFrom_iff.mp ⟨e.1, he⟩⟩

end Setting

/-- Packages without an entry are passed over. -/
theorem Search.foldl_visit_of_none {type : UInt8} {entry : UInt16} {isCurrent : Bool}
    {request : Config} {members : List GroupMember}
    (h : ∀ m ∈ members, m.locate? type entry = none) (search : Search) :
    members.foldl (visit type entry isCurrent request) search = search := by
  induction members with
  | nil => rfl
  | cons m members ih =>
      obtain ⟨hm, hmembers⟩ := List.forall_mem_cons.mp h
      have hvisit : visit type entry isCurrent request search m = search := by
        rw [visit, hm]
      rw [List.foldl_cons, hvisit, ih hmembers]

/-- The answer of a group is that of the packages in front if those behind have no entry. -/
theorem Resources.find_of_append {r r' : Resources} {id : ResourceId} {density : UInt16}
    {g g' : PackageGroup} {found : Selection} (h : r.find id density = .ok found)
    (hconfig : r'.config = r.config) (hg : r.group? (ResourceId.package id) = some g)
    (hg' : r'.group? (ResourceId.package id) = some g')
    {added : List GroupMember} (hmembers : g'.members = g.members ++ added)
    (hadded : ∀ m ∈ added, m.locate? (ResourceId.type id) (ResourceId.entry id) = none) :
    r'.find id density = .ok { found with libraries := g'.libraries } := by
  obtain ⟨hvalid, -⟩ := group?_of_find h
  have hrequest : r'.requestFor density = r.requestFor density := by
    unfold requestFor
    rw [hconfig]
  unfold find at h ⊢
  rw [if_pos hvalid, hg] at h
  rw [if_pos hvalid, hg']
  dsimp only at h ⊢
  rw [hmembers, List.foldl_append, Search.foldl_visit_of_none hadded, hconfig, hrequest]
  split at h
  · cases h
  · cases h
    rfl

namespace Setting

/-- A resource that is found is found as before if nothing that is added has to do with it. -/
theorem find_of_leavesAlone {assets more : List Asset} {config fitted : Config} {id : ResourceId}
    {density : UInt16} (hloaded : ∀ a ∈ more, a.Loaded) (hmore : ∀ a ∈ more, a.LeavesAlone id)
    {found : Selection}
    (h : (⟨assets, config, fitted⟩ : Setting).resources.find id density = .ok found) :
    ∃ libraries, (⟨assets ++ more, config, fitted⟩ : Setting).resources.find id density =
      .ok { found with libraries := libraries } := by
  have hstatic : ∀ a ∈ more, ∀ p ∈ a.table.packages, p.isDynamic = false :=
    fun a ha => (hmore a ha).static
  obtain ⟨g, hgroup, c, hc, -⟩ := Resources.exists_candidate_of_find
    (fun _ hg _ hm => PackageGroup.fitting_of_mem_refit hg hm) h
  -- the package that the entry was found in was given the id, and still is
  rw [members_of_group? hgroup] at hc
  obtain ⟨x, hx, -⟩ := List.mem_map.mp hc
  obtain ⟨hx, hid⟩ := List.mem_filter.mp hx
  obtain ⟨g', hgroup'⟩ := exists_group? (s := ⟨assets ++ more, config, fitted⟩) (x := x) (by
    rw [assigned_append hstatic]
    exact List.mem_append_left _ hx)
  rw [beq_iff_eq.mp hid] at hgroup'
  obtain ⟨added, hmembers, hadded⟩ := members_of_group?_append hstatic hgroup hgroup'
  refine ⟨g'.libraries, Resources.find_of_append h rfl hgroup hgroup' hmembers ?_⟩
  intro m hm
  obtain ⟨hpackage, a, ha, hmem⟩ := hadded m hm
  exact (hmore a ha).locate?_eq_none (hloaded a ha) hmem hpackage

end Setting

/-- A package beside the one of the application. -/
def extra : TableBuild where
  calls := [.package ⟨0x30, "extra", []⟩]

theorem withinLimits_extra : extra.WithinLimits := by decide +kernel

namespace Manager

open Setting

/-- A manager that finds a resource finds the same if further assets are added that leave the
resource alone; only the ids of libraries may become more. -/
theorem find_append_assets (id : Nat) (before : List Change) (assets more : List Asset)
    (configs : List Config) (resource : ResourceId) (density : UInt16)
    (hloaded : ∀ a ∈ more, a.Loaded) (hmore : ∀ a ∈ more, a.LeavesAlone resource)
    {found : Selection}
    (h : (run id (before ++ .assets assets :: configs.map .config)).resources.find
      resource density = .ok found) :
    ∃ libraries, (run id (before ++ .assets (assets ++ more) ::
        configs.map .config)).resources.find resource density =
      .ok { found with libraries := libraries } := by
  rw [run_resources, after_assets] at h ⊢
  exact find_of_leavesAlone hloaded hmore h

/-- The resource of an application is found as before beside a package of another id. -/
theorem find_append_assets_extra :
    (∀ a ∈ [extra.asset "extra"], a.Loaded) ∧
    (∀ a ∈ [extra.asset "extra"], a.LeavesAlone onlyId) ∧
    ∃ found, (run 0 [.assets [assetFor [.default]]]).resources.find onlyId 0 = .ok found ∧
      ∃ libraries, (run 0 [.assets [assetFor [.default], extra.asset "extra"]]).resources.find
        onlyId 0 = .ok { found with libraries := libraries } := by
  have hloaded : ∀ a ∈ [extra.asset "extra"], a.Loaded :=
    List.forall_mem_singleton.mpr (withinLimits_extra.loaded_asset (by decide) _)
  have hmore : ∀ a ∈ [extra.asset "extra"], a.LeavesAlone onlyId :=
    List.forall_mem_singleton.mpr
      ⟨List.forall_mem_singleton.mpr rfl, List.forall_mem_singleton.mpr (.inl (by decide))⟩
  have hfound : ((run 0 [.assets [assetFor [.default]]]).resources.find onlyId 0).toOption.isSome =
      true := by decide
  cases h : (run 0 [.assets [assetFor [.default]]]).resources.find onlyId 0 with
  | error e =>
      rw [h] at hfound
      cases hfound
  | ok found =>
      exact ⟨hloaded, hmore, found, rfl,
        find_append_assets 0 [] [assetFor [.default]] _ [] onlyId 0 hloaded hmore h⟩

end Manager

end AppResources
