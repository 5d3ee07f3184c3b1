import AppResources.Proofs.LoadedAssets
import AppResources.Proofs.Origin
import AppResources.Proofs.PoolIndex
import AppResources.Proofs.Reconfiguration
import AppResources.Proofs.RuntimeIds
import AppResources.Resources.Name
import Mathlib.Data.List.Nodup

/-!
# From ids to names and back

The name of a resource is read off the entry that a lookup selects, and an id is found again
by searching the pools of packages for the names and then the variants for the entry. The two
agree where names say what they should: the parts can be told apart in the text, a group is
known by its name, the pools give every text one index, and no two ids of a group have the
same names. It does not matter in which configuration the entry was selected, nor for which
one the variants were found.

## Main definitions

* `PackageGroup.Carries`: the ids that have a name in a group.
* `Resources.WellNamed`: names say what they should.

## Main results

* `Separable.parse?_text`: the text of a name has its parts.
* `carries_of_nameOf`: a resource has its name.
* `idOf?_nameOf`: the id of the name of a resource is that of the resource.
-/

namespace AppResources

/-! ## Names and their text -/

namespace ResourceName

namespace Split

/-- Characters that end no part are collected. -/
theorem foldl_step {cs : List Char} {s : Split}
    (htype : '/' ∉ cs ∨ isOpen s.type = false) (hpackage : ':' ∉ cs ∨ isOpen s.package = false) :
    cs.foldl step s = { s with current := cs.reverse ++ s.current } := by
  induction cs generalizing s with
  | nil => rfl
  | cons c cs ih =>
      have hslash : ¬ (c = '/' ∧ isOpen s.type = true) := by
        rintro ⟨rfl, hopen⟩
        simp [hopen] at htype
      have hcolon : ¬ (c = ':' ∧ isOpen s.package = true) := by
        rintro ⟨rfl, hopen⟩
        simp [hopen] at hpackage
      have hstep : s.step c = { s with current := c :: s.current } := by
        rw [step, if_neg hslash, if_neg hcolon]
      rw [List.foldl_cons, hstep, ih]
      · simp
      · exact htype.imp_left fun h hmem => h (List.mem_cons_of_mem c hmem)
      · exact hpackage.imp_left fun h hmem => h (List.mem_cons_of_mem c hmem)

end Split

/-- A name whose parts can be told apart in its text. -/
structure Separable (n : ResourceName) : Prop where
  package_ne : n.package ≠ ""
  package_colon : ':' ∉ n.package.toList
  package_slash : '/' ∉ n.package.toList
  package_sigil : n.package.toList.head? ≠ some '@'
  type_ne : n.type ≠ ""
  type_slash : '/' ∉ n.type.toList

variable {n : ResourceName}

theorem isOpen_toList {s : String} (h : s ≠ "") : Split.isOpen (some s.toList) = false := by
  cases hs : s.toList with
  | nil => exact absurd (String.toList_eq_nil_iff.mp hs) h
  | cons c cs => rfl

theorem withoutSigil_of_head?_ne {cs : List Char} (h : cs.head? ≠ some '@') :
    withoutSigil cs = cs := by
  unfold withoutSigil
  split
  · exact absurd rfl h
  · rfl

/-- The text of a name has its parts. -/
theorem Separable.parse?_text (h : n.Separable) : parse? n.text = some n := by
  have htext : n.text.toList =
      n.package.toList ++ ':' :: (n.type.toList ++ '/' :: n.entry.toList) := by
    simp [text]
  have hpackage := isOpen_toList h.package_ne
  have htype := isOpen_toList h.type_ne
  have hne : n.package.toList ≠ [] := fun hnil => h.package_ne (String.toList_eq_nil_iff.mp hnil)
  have hsigil : withoutSigil n.text.toList = n.text.toList := by
    refine withoutSigil_of_head?_ne ?_
    rw [htext, List.head?_append, Option.or_of_isSome (by simpa using hne)]
    exact h.package_sigil
  -- the package, its colon, the type, its slash and the entry are taken in one after the other
  have hsplit : n.text.toList.foldl Split.step {} =
      { package := some n.package.toList
        type := some n.type.toList
        current := n.entry.toList.reverse } := by
    rw [htext, List.foldl_append, Split.foldl_step (.inl h.package_slash) (.inl h.package_colon),
      List.foldl_cons, List.append_nil]
    have hcolon : Split.step { current := n.package.toList.reverse } ':' =
        { package := some n.package.toList } := by
      simp [Split.step, Split.isOpen]
    rw [hcolon, List.foldl_append, Split.foldl_step (.inl h.type_slash) (.inr hpackage),
      List.foldl_cons, List.append_nil]
    have hslash : Split.step
        { package := some n.package.toList, current := n.type.toList.reverse } '/' =
          { package := some n.package.toList, type := some n.type.toList } := by
      simp [Split.step, Split.isOpen]
    rw [hslash, Split.foldl_step (.inr htype) (.inr hpackage), List.append_nil]
  rw [parse?, hsigil, hsplit]
  simp [h.package_ne, h.type_ne]

end ResourceName

/-! ## Entries by names -/

namespace Package

/-- A package has an entry with these names under a type byte and an index. -/
def Carries (p : Package) (type : UInt8) (index : UInt16) (typeName entryName : String) : Prop :=
  ∃ slot s v e, p.spec? slot = some s ∧ slot + p.typeIdOffset.toNat + 1 = type.toNat ∧
    v ∈ s.variants ∧ v.entry? index = some e ∧
      p.typeName? slot = some typeName ∧ p.entryName? e = some entryName

/-- The names of a package are strings of pools that are searched as they should be. -/
structure Spelled (p : Package) : Prop where
  types : ∀ pool, p.typeNames = some pool → pool.Spelled
  keys : ∀ pool, p.keyNames = some pool → pool.Spelled

variable {p : Package} {type : UInt8} {index : UInt16} {typeName entryName : String}
  {slot : Nat} {s : TypeSpec}

/-- A type in a slot of a package that is no overlay has the id of the slot, and stays within a
byte with the offset. -/
theorem Arranged.toNat_id (h : p.Arranged) (hown : p.isOverlay = false)
    (hspec : p.spec? slot = some s) :
    s.id.toNat = slot + 1 ∧ slot + p.typeIdOffset.toNat + 1 ≤ 255 := by
  obtain ⟨hs, hid⟩ := h.slots slot s (spec?_eq_some_iff.mp hspec)
  have hle := hs.id_le
  rw [hid hown] at hle
  exact ⟨hid hown, by omega⟩

theorem Spelled.bind_indexOf?_types (h : p.Spelled) :
    p.typeNames.bind (·.indexOf? typeName) = some slot ↔ p.typeName? slot = some typeName := by
  unfold typeName?
  cases hpool : p.typeNames with
  | none => simp
  | some pool => exact (h.types pool hpool).indexOf?_eq_some_iff

theorem Spelled.bind_indexOf?_keys (h : p.Spelled) {e : Entry} :
    p.keyNames.bind (·.indexOf? entryName) = some e.key.toNat ↔
      p.entryName? e = some entryName := by
  unfold entryName?
  cases hpool : p.keyNames with
  | none => simp
  | some pool => exact (h.keys pool hpool).indexOf?_eq_some_iff

/-- What is found by names has the names. -/
theorem carries_of_findEntry? (h : p.Arranged) (hown : p.isOverlay = false) (hspelled : p.Spelled)
    {id : ResourceId} (hid : p.findEntry? typeName entryName = some id) :
    ∃ type index, id = ResourceId.make 0 type index ∧
      p.Carries type index typeName entryName := by
  unfold findEntry? at hid
  obtain ⟨slot, hslot, hid⟩ := Option.bind_eq_some_iff.mp hid
  obtain ⟨key, hkey, hid⟩ := Option.bind_eq_some_iff.mp hid
  obtain ⟨s, hspec, hid⟩ := Option.bind_eq_some_iff.mp hid
  obtain ⟨index, hindex, hid⟩ := Option.bind_eq_some_iff.mp hid
  obtain ⟨v, hv, hfound⟩ := List.exists_of_findSome?_eq_some hindex
  obtain ⟨hlt, hentry, -⟩ := Array.findIdx?_eq_some_iff_getElem.mp hfound
  obtain ⟨e, he, hsame⟩ := (Option.any_eq_true _ _).mp hentry
  -- neither the type byte nor the index is cut off
  obtain ⟨-, htype⟩ := h.toNat_id hown hspec
  have hcount := ((h.slots slot s (spec?_eq_some_iff.mp hspec)).1.variants v hv).2
  have hindexNat : (UInt16.ofNat index).toNat = index := by
    rw [UInt16.toNat_ofNat']
    omega
  refine ⟨_, _, (Option.some.inj hid).symm, slot, s, v, e, hspec, ?_, hv, ?_, ?_, ?_⟩
  · rw [UInt8.toNat_ofNat']
    omega
  · rw [Variant.entry?_eq_some_iff, hindexNat, Array.getElem?_eq_getElem hlt, he]
  · exact hspelled.bind_indexOf?_types.mp hslot
  · rw [← hspelled.bind_indexOf?_keys, hkey, beq_iff_eq.mp hsame]

/-- An entry with some names is found by them. -/
theorem Carries.exists_findEntry? (h : p.Carries type index typeName entryName)
    (hspelled : p.Spelled) : ∃ id, p.findEntry? typeName entryName = some id := by
  obtain ⟨slot, s, v, e, hspec, -, hv, he, htype, hkey⟩ := h
  have hstored := Variant.entry?_eq_some_iff.mp he
  obtain ⟨found, hfound⟩ : ∃ found, s.variants.findSome? (fun v =>
      v.entries.findIdx? fun entry => entry.any (·.key.toNat == e.key.toNat)) = some found := by
    rw [← Option.isSome_iff_exists, List.findSome?_isSome_iff]
    refine ⟨v, hv, ?_⟩
    rw [Array.findIdx?_isSome, Array.any_eq_true']
    exact ⟨some e, Array.mem_of_getElem? hstored, beq_self_eq_true e.key.toNat⟩
  unfold findEntry?
  rw [hspelled.bind_indexOf?_types.mpr htype, hspelled.bind_indexOf?_keys.mpr hkey]
  simp only [Option.bind_eq_bind, Option.bind_some, hspec, hfound]
  exact ⟨_, rfl⟩

end Package

/-- A search that can only find one thing finds it if there is one. -/
theorem findSome?_eq_some_of_unique {α β : Type} {xs : List α} {f : α → Option β} {b : β}
    (hsome : ∃ a ∈ xs, (f a).isSome) (honly : ∀ a ∈ xs, ∀ c, f a = some c → c = b) :
    xs.findSome? f = some b := by
  obtain ⟨c, hc⟩ := Option.isSome_iff_exists.mp (List.findSome?_isSome_iff.mpr hsome)
  obtain ⟨a, ha, hfound⟩ := List.exists_of_findSome?_eq_some hc
  rw [hc, honly a ha c hfound]

namespace PackageGroup

/-- An id has these names in a package of a group. -/
def Carries (g : PackageGroup) (id : ResourceId) (typeName entryName : String) : Prop :=
  ResourceId.package id = g.id ∧ ∃ m ∈ g.members,
    m.package.Carries (ResourceId.type id) (ResourceId.entry id) typeName entryName

end PackageGroup

namespace Resources

/-- Names say what they should: the packages of a group share a name that no other group has
and that can be told apart from what follows it, all pools are searched as they should be,
type names do not end early and are not the one that attributes fall back on, and no two ids of
a group have the same names. -/
structure WellNamed (r : Resources) : Prop where
  shared : ∀ g ∈ r.groups, ∀ m ∈ g.members, g.name? = some m.package.name
  distinct : (r.groups.map (·.name?)).Nodup
  packageNames : ∀ g ∈ r.groups, ∀ name, g.name? = some name →
    name ≠ "" ∧ ':' ∉ name.toList ∧ '/' ∉ name.toList ∧ name.toList.head? ≠ some '@'
  pools : ∀ g ∈ r.groups, ∀ m ∈ g.members, m.package.Spelled
  typeNames : ∀ g ∈ r.groups, ∀ m ∈ g.members, ∀ slot name,
    m.package.typeName? slot = some name → '/' ∉ name.toList ∧ name ≠ privateAttributes
  unique : ∀ g ∈ r.groups, ∀ typeName entryName id other,
    g.Carries id typeName entryName → g.Carries other typeName entryName → id = other

/-- All packages are arranged and none is an overlay. -/
def Plain (r : Resources) : Prop :=
  ∀ g ∈ r.groups, ∀ m ∈ g.members, m.package.Arranged ∧ m.package.isOverlay = false

variable {r : Resources} {g : PackageGroup} {m : GroupMember} {config : Config}
  {id : ResourceId} {typeName entryName : String}

/-- Attributes are found in the type of their name only. -/
theorem WellNamed.entryOf?_eq (h : r.WellNamed) (hg : g ∈ r.groups) (hm : m ∈ g.members) :
    entryOf? m.package typeName entryName = m.package.findEntry? typeName entryName := by
  have hprivate : m.package.findEntry? privateAttributes entryName = none := by
    cases hslot : m.package.typeNames.bind (·.indexOf? privateAttributes) with
    | none =>
        unfold Package.findEntry?
        rw [hslot]
        rfl
    | some slot =>
        have hname := (h.pools g hg m hm).bind_indexOf?_types.mp hslot
        exact absurd rfl (h.typeNames g hg m hm slot _ hname).2
  rw [entryOf?, hprivate, ite_self, Option.or_none]

/-- In its group an id is found by its names. -/
theorem WellNamed.entryInGroup?_eq (h : r.WellNamed) (hplain : r.Plain) (hg : g ∈ r.groups)
    {package : String} (hname : g.name? = some package)
    (hcarries : g.Carries id typeName entryName) :
    entryInGroup? g package typeName entryName = some id := by
  -- all packages have the name of the group
  have hall : g.members.takeWhile (·.package.name == package) = g.members := by
    rw [List.takeWhile_eq_self_iff]
    intro m hm
    have hshared := h.shared g hg m hm
    rw [hname] at hshared
    exact beq_iff_eq.mpr (Option.some.inj hshared).symm
  have hparts := ResourceId.make_parts id
  rw [hcarries.1] at hparts
  have hfound : g.members.findSome? (fun m => entryOf? m.package typeName entryName) =
      some (ResourceId.make 0 (ResourceId.type id) (ResourceId.entry id)) := by
    refine findSome?_eq_some_of_unique ?_ fun m hm found hentry => ?_
    · obtain ⟨m, hm, hentry⟩ := hcarries.2
      obtain ⟨found, hfound⟩ := hentry.exists_findEntry? (h.pools g hg m hm)
      exact ⟨m, hm, by rw [h.entryOf?_eq hg hm, hfound]; rfl⟩
    · rw [h.entryOf?_eq hg hm] at hentry
      obtain ⟨harranged, hown⟩ := hplain g hg m hm
      obtain ⟨type, index, rfl, hother⟩ :=
        Package.carries_of_findEntry? harranged hown (h.pools g hg m hm) hentry
      have hothers : g.Carries (ResourceId.make g.id type index) typeName entryName := by
        refine ⟨ResourceId.package_make _ _ _, m, hm, ?_⟩
        rwa [ResourceId.type_make, ResourceId.entry_make]
      rw [h.unique g hg _ _ _ _ hcarries hothers, ResourceId.type_make, ResourceId.entry_make]
  rw [entryInGroup?, hall, hfound, Option.map_some, ResourceId.withPackage,
    ResourceId.type_make, ResourceId.entry_make, hparts]

theorem name?_of_entryInGroup? {package : String} {found : ResourceId}
    (h : entryInGroup? g package typeName entryName = some found) : g.name? = some package := by
  unfold entryInGroup? at h
  unfold PackageGroup.name?
  cases hmembers : g.members with
  | nil =>
      rw [hmembers] at h
      cases h
  | cons m members =>
      rw [hmembers, List.takeWhile_cons] at h
      split at h
      · next hname => rw [List.head?_cons, Option.map_some, beq_iff_eq.mp hname]
      · cases h

/-- Among all groups an id is found by its names. -/
theorem WellNamed.idOf?_text (h : r.WellNamed) (hplain : r.Plain) (hg : g ∈ r.groups)
    {package : String} (hname : g.name? = some package)
    (hcarries : g.Carries id typeName entryName) (fallbackType fallbackPackage : String) :
    r.idOf? (ResourceName.text ⟨package, typeName, entryName⟩) fallbackType fallbackPackage =
      some id := by
  obtain ⟨m, hm, slot, s, v, e, -, -, -, -, htype, hkey⟩ := hcarries.2
  obtain ⟨hpackageNe, hcolon, hslash, hsigil⟩ := h.packageNames g hg package hname
  obtain ⟨htypeSlash, -⟩ := h.typeNames g hg m hm slot typeName htype
  have htypeNe : typeName ≠ "" := by
    obtain ⟨pool, hpool, hstring⟩ := Option.bind_eq_some_iff.mp htype
    exact ((h.pools g hg m hm).types pool hpool).ne_empty hstring
  have hentryNe : entryName ≠ "" := by
    obtain ⟨pool, hpool, hstring⟩ := Option.bind_eq_some_iff.mp hkey
    exact ((h.pools g hg m hm).keys pool hpool).ne_empty hstring
  have hparse : ResourceName.parse? (ResourceName.text ⟨package, typeName, entryName⟩) =
      some ⟨package, typeName, entryName⟩ :=
    ResourceName.Separable.parse?_text ⟨hpackageNe, hcolon, hslash, hsigil, htypeNe, htypeSlash⟩
  have hfound := h.entryInGroup?_eq hplain hg hname hcarries
  unfold idOf?
  rw [hparse]
  simp only [orElse, String.isEmpty_iff, hpackageNe, htypeNe, hentryNe, if_false]
  refine findSome?_eq_some_of_unique ⟨g, hg, by rw [hfound]; rfl⟩ fun other hother c hc => ?_
  -- only the group has the name
  have hsame : other = g := by
    refine List.inj_on_of_nodup_map h.distinct hother hg ?_
    rw [name?_of_entryInGroup? hc, hname]
  rw [hsame, hfound] at hc
  exact (Option.some.inj hc).symm

/-- In a package that is no overlay an id names the entry with its index in the slot of its
type byte. -/
theorem of_locate?_own {type : UInt8} {index own : UInt16} {slot : Nat} {s : TypeSpec}
    (h : m.package.Arranged) (hown : m.package.isOverlay = false)
    (hlocate : m.locate? type index = some (slot, s, own)) :
    own = index ∧ slot + m.package.typeIdOffset.toNat + 1 = type.toNat := by
  have hspec := GroupMember.spec?_of_locate? hlocate
  have hoverlay := (h.slots slot s (Package.spec?_eq_some_iff.mp hspec)).1.own hown
  unfold GroupMember.locate? at hlocate
  dsimp only at hlocate
  split at hlocate
  · cases hlocate
  · split at hlocate
    · cases hlocate
    · split at hlocate
      · cases hlocate
        exact ⟨rfl, by omega⟩
      · next map hmap =>
        obtain ⟨_, _, heq⟩ := Option.map_eq_some_iff.mp hlocate
        cases heq
        rw [hoverlay] at hmap
        cases hmap

/-- A resource has its name in its group. -/
theorem carries_of_nameOf (hplain : r.Plain)
    (hfitting : ∀ g ∈ r.groups, ∀ m ∈ g.members,
      m.fitting = GroupMember.fittingOf m.package config)
    {n : ResourceName} (h : r.nameOf id = .ok n) :
    ∃ g ∈ r.groups, (∃ m ∈ g.members, m.package.name = n.package) ∧
      g.Carries id n.type n.entry := by
  unfold nameOf at h
  split at h
  · cases h
  next found hfound =>
  obtain ⟨g, hgroup, c, hmem, ⟨slot, s, index, hlocate, hv, hentry⟩, axes, rfl⟩ :=
    exists_candidate_of_find hfitting hfound
  have hg := List.mem_of_find?_eq_some hgroup
  have hid : g.id = ResourceId.package id := by simpa using List.find?_some hgroup
  obtain ⟨harranged, hown⟩ := hplain g hg c.member hmem
  have hspec := GroupMember.spec?_of_locate? hlocate
  obtain ⟨rfl, htype⟩ := of_locate?_own harranged hown hlocate
  -- the slot that the name of the type is taken from is that of the type
  have hslot : c.variant.typeId.toNat - 1 = slot := by
    obtain ⟨hs, -⟩ := harranged.slots slot s (Package.spec?_eq_some_iff.mp hspec)
    rw [(hs.variants _ hv).1, (harranged.toNat_id hown hspec).1]
    rfl
  split at h
  · next typeName entryName htypeName hentryName =>
    cases h
    refine ⟨g, hg, ⟨c.member, hmem, rfl⟩, hid.symm, c.member, hmem, slot, s, c.variant, c.entry,
      hspec, htype, hv, hentry, ?_, hentryName⟩
    rw [← hslot]
    exact htypeName
  · cases h

end Resources

namespace Manager

/-- The packages of loaded assets that are no overlays are plain. -/
theorem plain_after {changes : List Change}
    (hloaded : ∀ a ∈ (Setting.after changes).assets, a.Loaded ∧ a.isOverlay = false) :
    (Setting.after changes).resources.Plain := by
  intro g hg m hm
  obtain ⟨g₀, hg₀, rfl⟩ := List.mem_map.mp hg
  obtain ⟨m₀, hm₀, rfl⟩ := List.mem_map.mp hm
  obtain ⟨a, ha, hp⟩ := PackageGroup.mem_ofAssets hg₀ hm₀
  obtain ⟨harranged, hown⟩ := (hloaded a ha).1.arranged _ hp
  exact ⟨harranged, hown.trans (hloaded a ha).2⟩

/-- After any changes the id of the name of a resource is that of the resource, if the assets
are no overlays and names say what they should. -/
theorem idOf?_nameOf (number : Nat) (changes : List Change)
    (hloaded : ∀ a ∈ (Setting.after changes).assets, a.Loaded ∧ a.isOverlay = false)
    (hnamed : (run number changes).resources.WellNamed) {id : ResourceId} {n : ResourceName}
    (h : (run number changes).resources.nameOf id = .ok n)
    (fallbackType fallbackPackage : String) :
    (run number changes).resources.idOf? n.text fallbackType fallbackPackage = some id := by
  rw [Setting.run_resources] at hnamed h ⊢
  have hplain := plain_after hloaded
  obtain ⟨g, hg, ⟨m, hm, hpackage⟩, hcarries⟩ := Resources.carries_of_nameOf hplain
    (fun g hg m hm => PackageGroup.fitting_of_mem_refit hg hm) h
  have hname := hnamed.shared g hg m hm
  rw [hpackage] at hname
  exact hnamed.idOf?_text hplain hg hname hcarries fallbackType fallbackPackage

end Manager

/-- A table with two texts that have names. -/
def greetings : TableBuild where
  calls := [
    .strings ["Hello", "Bye"],
    .package ⟨0x7f, "app", [
      .typeNames ["string"],
      .keyNames ["greeting", "farewell"],
      .entry 1 0 {} (.plain 0 0 ⟨.string, 0⟩),
      .entry 1 1 {} (.plain 1 0 ⟨.string, 1⟩)]⟩]

theorem withinLimits_greetings : greetings.WithinLimits := by decide +kernel

/-- What the package of the table holds once it is loaded. -/
structure Package.Greets (p : Package) : Prop where
  name : p.name = "app"
  typeNames : p.typeNames = some (.written false false ["string"])
  keyNames : p.keyNames = some (.written true false ["greeting", "farewell"])
  typeIdOffset : p.typeIdOffset = 0
  variants : ∃ s v, p.slots = [some s] ∧ s.variants = [v] ∧
    v.entries.toList.map (·.map Entry.key) = [some 0, some 1]

namespace Package.Greets

variable {p : Package} {slot : Nat} {e : Entry} {type : UInt8} {index : UInt16}
  {typeName entryName : String}

theorem typeName?_eq (h : p.Greets) (slot : Nat) : p.typeName? slot = ["string"][slot]? := by
  rw [typeName?, h.typeNames, Option.bind_some]
  exact StringPool.string?_written (by decide) (by decide) slot

theorem entryName?_eq (h : p.Greets) (e : Entry) :
    p.entryName? e = ["greeting", "farewell"][e.key.toNat]? := by
  rw [entryName?, h.keyNames, Option.bind_some]
  exact StringPool.string?_written (by decide) (by decide) e.key.toNat

theorem spelled (h : p.Greets) : p.Spelled := by
  constructor
  · intro pool hpool
    rw [h.typeNames] at hpool
    cases hpool
    exact StringPool.spelled_written (by decide) (by decide) (by decide) (by decide)
  · intro pool hpool
    rw [h.keyNames] at hpool
    cases hpool
    exact StringPool.spelled_written (by decide) (by decide) (by decide) (by decide)

theorem of_typeName? (h : p.Greets) (hname : p.typeName? slot = some typeName) :
    slot = 0 ∧ typeName = "string" := by
  rw [h.typeName?_eq, List.getElem?_singleton] at hname
  split at hname
  · next hslot => exact ⟨hslot, (Option.some.inj hname).symm⟩
  · cases hname

/-- Every entry has the key with its own index. -/
theorem of_carries (h : p.Greets) (hcarries : p.Carries type index typeName entryName) :
    type = 1 ∧ ["greeting", "farewell"][index.toNat]? = some entryName := by
  obtain ⟨slot, s', v', e, hspec, htype, hv, he, hslot, hkey⟩ := hcarries
  obtain ⟨rfl, -⟩ := h.of_typeName? hslot
  obtain ⟨s, v, hslots, hvariants, hentries⟩ := h.variants
  rw [spec?, hslots] at hspec
  cases hspec
  rw [hvariants, List.mem_singleton] at hv
  subst hv
  rw [h.typeIdOffset] at htype
  refine ⟨UInt8.toNat_inj.mp htype.symm, ?_⟩
  have hstored : [some (0 : UInt32), some 1][index.toNat]? = some (some e.key) := by
    rw [← hentries, List.getElem?_map, Array.getElem?_toList, Variant.entry?_eq_some_iff.mp he]
    rfl
  have hsame : e.key.toNat = index.toNat := by
    match hindex : index.toNat with
    | 0 | 1 =>
        rw [hindex] at hstored
        rw [← Option.some.inj (Option.some.inj hstored)]
        rfl
    | n + 2 =>
        rw [hindex] at hstored
        cases hstored
  rw [← hsame, ← h.entryName?_eq, hkey]

end Package.Greets

theorem groups_greetings : ∃ g member,
    (Manager.run 0 [.assets [greetings.asset "app"]]).resources.groups = [g] ∧
      g.id = 0x7f ∧ g.members = [member] ∧ member.package.Greets :=
  ⟨_, _, rfl, rfl, rfl, rfl, rfl, rfl, rfl, _, _, rfl, rfl, by decide +kernel⟩

theorem wellNamed_greetings :
    (Manager.run 0 [.assets [greetings.asset "app"]]).resources.WellNamed := by
  obtain ⟨g, member, hgroups, hid, hmembers, hgreets⟩ := groups_greetings
  have hgroup : g.name? = some "app" := by
    rw [PackageGroup.name?, hmembers, List.head?_cons, Option.map_some, hgreets.name]
  constructor <;> rw [hgroups]
  · rw [List.forall_mem_singleton, hmembers, List.forall_mem_singleton, hgroup, hgreets.name]
  · exact List.nodup_singleton _
  · rw [List.forall_mem_singleton, hgroup]
    rintro name heq
    cases heq
    decide
  · rw [List.forall_mem_singleton, hmembers, List.forall_mem_singleton]
    exact hgreets.spelled
  · rw [List.forall_mem_singleton, hmembers, List.forall_mem_singleton]
    intro slot name h
    rw [(hgreets.of_typeName? h).2]
    decide
  · -- the package and the type are the only ones, and no text is the name of two entries
    rw [List.forall_mem_singleton]
    rintro typeName entryName id other ⟨hpackage, m, hm, h⟩ ⟨hpackage', m', hm', h'⟩
    rw [hmembers, List.mem_singleton] at hm hm'
    subst hm hm'
    obtain ⟨htype, hentry⟩ := hgreets.of_carries h
    obtain ⟨htype', hentry'⟩ := hgreets.of_carries h'
    have hindex : ResourceId.entry id = ResourceId.entry other :=
      UInt16.toNat_inj.mp ((List.getElem?_inj (List.getElem?_eq_some_iff.mp hentry).1
        (by decide)).mp (hentry.trans hentry'.symm))
    rw [← ResourceId.make_parts id, ← ResourceId.make_parts other, hpackage, hpackage', htype,
      htype', hindex]

namespace Manager

/-- The second text has its name, and the name leads back to its id. -/
theorem idOf?_nameOf_greetings :
    (∀ a ∈ (Setting.after [.assets [greetings.asset "app"]]).assets,
      a.Loaded ∧ a.isOverlay = false) ∧
      (Manager.run 0 [.assets [greetings.asset "app"]]).resources.WellNamed ∧
      (Manager.run 0 [.assets [greetings.asset "app"]]).resources.nameOf 0x7f010001 =
        .ok ⟨"app", "string", "farewell"⟩ ∧
      (Manager.run 0 [.assets [greetings.asset "app"]]).resources.idOf?
        (ResourceName.text ⟨"app", "string", "farewell"⟩) "" "" = some 0x7f010001 := by
  have hloaded : ∀ a ∈ (Setting.after [.assets [greetings.asset "app"]]).assets,
      a.Loaded ∧ a.isOverlay = false :=
    List.forall_mem_singleton.mpr ⟨withinLimits_greetings.loaded_asset (by decide) _, rfl⟩
  have hselected : ((Manager.run 0 [.assets [greetings.asset "app"]]).resources.find
      0x7f010001 0).toOption.map (fun s => (s.typeSlot, s.entry.key)) = some (0, 1) := by
    decide +kernel
  obtain ⟨found, hsome, hselection⟩ := Option.map_eq_some_iff.mp hselected
  have hfound : (Manager.run 0 [.assets [greetings.asset "app"]]).resources.find
      0x7f010001 0 = .ok found := by
    cases hfind : (Manager.run 0 [.assets [greetings.asset "app"]]).resources.find
        0x7f010001 0 with
    | error e =>
        rw [hfind] at hsome
        cases hsome
    | ok selected =>
        rw [hfind] at hsome
        exact congrArg Except.ok (Option.some.inj hsome)
  obtain ⟨hslot, hkey⟩ := Prod.mk.inj hselection
  -- the entry is selected in the only package there is
  have hpackage : ∃ g ∈ (Manager.run 0 [.assets [greetings.asset "app"]]).resources.groups,
      ∃ m ∈ g.members, found.package = m.package := by
    obtain ⟨g, hgroup, c, hmem, -, axes, rfl⟩ := Resources.exists_candidate_of_find
      (fun g hg m hm => PackageGroup.fitting_of_mem_refit hg hm) hfound
    exact ⟨g, List.mem_of_find?_eq_some hgroup, c.member, hmem, rfl⟩
  obtain ⟨g, member, hgroups, -, hmembers, hgreets⟩ := groups_greetings
  rw [hgroups] at hpackage
  simp only [List.mem_singleton, exists_eq_left, hmembers] at hpackage
  rw [← hpackage] at hgreets
  have hnameOf : (Manager.run 0 [.assets [greetings.asset "app"]]).resources.nameOf 0x7f010001 =
      .ok ⟨"app", "string", "farewell"⟩ := by
    have htype : found.typeName? = some "string" := by
      rw [Selection.typeName?, hgreets.typeName?_eq, hslot]
      rfl
    have hentry : found.entryName? = some "farewell" := by
      rw [Selection.entryName?, hgreets.entryName?_eq, hkey]
      rfl
    rw [Resources.nameOf, hfound]
    simp only [htype, hentry, hgreets.name]
  exact ⟨hloaded, wellNamed_greetings, hnameOf,
    Manager.idOf?_nameOf 0 _ hloaded wellNamed_greetings hnameOf "" ""⟩

end Manager

end AppResources
