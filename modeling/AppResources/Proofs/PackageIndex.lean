import AppResources.Resources.Index
import AppResources.Proofs.LibraryReferences
import Mathlib.Data.List.Nodup
import Mathlib.Data.List.Perm.Subperm
import Mathlib.Data.Set.Function

/-!
# The index of package ids

The table of positions and the list of groups are two accounts of the same thing, and they stay
in step while packages are added. A group has the position that the table holds for its id, an
id without a group has the mark `unused`. The mark is a possible byte, so this works only as
long as no group gets its position: no group has the id zero, which leaves 255 ids, and the
last of so many positions is one below the mark.

What a group holds is described by the packages that were added: each is in the group of the
id that it was given, and a library is given one as long as any is left.

## Main definitions

* `GroupIndex.Addressed`: positions and ids of groups are in step.
* `GroupIndex.Given`: the id that a package among others is given.
* `GroupIndex.Collects`: the groups hold the packages that were added.

## Main results

* `Addressed.add`, `Collects.add`: one more package keeps both.
* `groups_ofAssets`: the groups are those that are collected without a table.
* `index_setAssets`: the index after some assets were given.
-/

namespace AppResources

namespace IndexedGroup

variable {g : IndexedGroup} {cookie : Nat} {p : AssetPackage}

/-! ## Groups -/

/-- The packages of a group, each with the position of its asset. -/
def entries (g : IndexedGroup) : List (Nat × AssetPackage) :=
  g.cookies.zip g.packages

/-- There are packages, and as many as there are positions of assets. -/
structure Paired (g : IndexedGroup) : Prop where
  nonempty : g.packages ≠ []
  length_eq : g.packages.length = g.cookies.length

@[simp]
theorem id_add : (g.add cookie p).id = g.id :=
  LibraryTable.ownId_foldl (fun t (l : Library) => t.addLibrary l.name l.buildId)
    (fun _ _ => rfl) p.package.libraries

theorem entries_add (h : g.packages.length = g.cookies.length) :
    (g.add cookie p).entries = g.entries ++ [(cookie, p)] :=
  List.zip_append h.symm

theorem paired_add (h : g.packages.length = g.cookies.length) : (g.add cookie p).Paired := by
  refine ⟨List.concat_ne_nil _ _, ?_⟩
  simp [add, h]

end IndexedGroup

namespace GroupIndex

open PackageGroup (firstLibraryId lastId)

variable {x : GroupIndex} {id other : UInt8} {cookie : Nat} {p : AssetPackage}

/-! ## Positions and ids -/

/-- The ids of the groups. -/
def ids (x : GroupIndex) : List UInt8 := x.groups.map (·.id)

/-- The table and the groups are in step. -/
structure Addressed (x : GroupIndex) : Prop where
  /-- No group has the id zero. -/
  nonzero : 0 ∉ x.ids
  /-- There is one group for an id. -/
  distinct : x.ids.Nodup
  /-- The table points to every group. -/
  position_of : ∀ k id, x.ids[k]? = some id → x.position id = UInt8.ofNat k
  /-- The table points nowhere for other ids. -/
  position_unused : ∀ id, id ∉ x.ids → x.position id = unused

theorem getElem?_ids_eq_some_iff {k : Nat} :
    x.ids[k]? = some id ↔ ∃ g, x.groups[k]? = some g ∧ g.id = id := by
  rw [ids, List.getElem?_map, Option.map_eq_some_iff]

theorem Addressed.index_unique (h : x.Addressed) {j k : Nat} (hj : x.ids[j]? = some id)
    (hk : x.ids[k]? = some id) : j = k :=
  (List.getElem?_inj (List.getElem?_eq_some_iff.mp hj).1 h.distinct).mp (hj.trans hk.symm)

theorem length_le_of_nodup {ids : List UInt8} (hzero : 0 ∉ ids) (h : ids.Nodup) :
    ids.length ≤ 255 := by
  have hnodup : (ids.map UInt8.toNat).Nodup := h.map fun _ _ heq => UInt8.toNat_inj.mp heq
  have hsubset : ids.map UInt8.toNat ⊆ List.range' 1 255 := by
    intro n hn
    obtain ⟨id, hid, rfl⟩ := List.mem_map.mp hn
    have hne : id.toNat ≠ 0 := fun heq => hzero ((UInt8.toNat_inj (b := 0)).mp heq ▸ hid)
    have hlt := id.toNat_lt
    rw [List.mem_range'_1]
    omega
  have hlength := hnodup.length_le_of_subset hsubset
  rwa [List.length_map, List.length_range'] at hlength

theorem Addressed.length_le (h : x.Addressed) : x.groups.length ≤ 255 := by
  rw [← List.length_map (f := (·.id))]
  exact length_le_of_nodup h.nonzero h.distinct

theorem Addressed.toNat_position (h : x.Addressed) {k : Nat} (hk : x.ids[k]? = some id) :
    (x.position id).toNat = k ∧ x.position id ≠ unused := by
  have hle := h.length_le
  have hlt : k < x.ids.length := (List.getElem?_eq_some_iff.mp hk).1
  rw [ids, List.length_map] at hlt
  have hnat : (x.position id).toNat = k := by
    rw [h.position_of k id hk, UInt8.toNat_ofNat']
    omega
  refine ⟨hnat, fun heq => ?_⟩
  have : k = 255 := by rw [← hnat, heq]; rfl
  omega

theorem Addressed.position_eq_unused_iff (h : x.Addressed) :
    x.position id = unused ↔ id ∉ x.ids := by
  refine ⟨fun hunused hmem => ?_, h.position_unused id⟩
  obtain ⟨k, hk⟩ := List.mem_iff_getElem?.mp hmem
  exact (h.toNat_position hk).2 hunused

theorem Addressed.getElem?_position (h : x.Addressed) (hused : x.position id ≠ unused) :
    x.ids[(x.position id).toNat]? = some id := by
  have hmem : id ∈ x.ids := by
    by_contra hnot
    exact hused (h.position_unused id hnot)
  obtain ⟨k, hk⟩ := List.mem_iff_getElem?.mp hmem
  rw [(h.toNat_position hk).1]
  exact hk

/-- Only the ids of the groups and the table matter. -/
theorem Addressed.congr (h : x.Addressed) {y : GroupIndex} (hids : y.ids = x.ids)
    (hpositions : y.positions = x.positions) : y.Addressed := by
  have hposition : ∀ id, y.position id = x.position id := by
    intro id
    rw [position, hpositions]
    rfl
  constructor
  · rw [hids]
    exact h.nonzero
  · rw [hids]
    exact h.distinct
  · rw [hids]
    exact fun k id hk => (hposition id).trans (h.position_of k id hk)
  · rw [hids]
    exact fun id hid => (hposition id).trans (h.position_unused id hid)

/-- The ids with a group and the groups are in one-to-one correspondence. -/
theorem Addressed.bijOn (h : x.Addressed) :
    Set.BijOn (fun id => (x.position id).toNat) {id | x.position id ≠ unused}
      {k | k < x.groups.length} := by
  refine ⟨fun id hused => ?_, fun id hused other hother heq => ?_, fun k hk => ?_⟩
  · have hlt := (List.getElem?_eq_some_iff.mp (h.getElem?_position hused)).1
    rwa [ids, List.length_map] at hlt
  · have hid := h.getElem?_position hused
    dsimp only at heq
    rw [heq, h.getElem?_position hother] at hid
    exact (Option.some.inj hid).symm
  · have hlt : k < x.ids.length := by
      rw [ids, List.length_map]
      exact hk
    obtain ⟨hnat, hused⟩ := h.toNat_position (List.getElem?_eq_getElem hlt)
    exact ⟨_, hused, hnat⟩

/-! ## Adding a package -/

@[simp]
theorem nextLibraryId_place : (x.place id cookie p).nextLibraryId = x.nextLibraryId := by
  unfold place
  split <;> rfl

/-- A package either opens a group behind the others, with the position in the table, or is
added to the group with its id. -/
theorem Addressed.place_cases (h : x.Addressed) (id : UInt8) (cookie : Nat) (p : AssetPackage) :
    (id ∉ x.ids ∧
      (x.place id cookie p).groups = x.groups ++ [(IndexedGroup.start id p.package).add cookie p] ∧
      ∀ other, (x.place id cookie p).position other =
        if other = id then UInt8.ofNat x.groups.length else x.position other) ∨
    ∃ k, x.ids[k]? = some id ∧
      (x.place id cookie p).groups = x.groups.modify k (.add cookie p) ∧
      (x.place id cookie p).positions = x.positions := by
  unfold place
  by_cases hunused : x.position id = unused
  · rw [if_pos hunused]
    refine .inl ⟨h.position_eq_unused_iff.mp hunused, rfl, fun other => ?_⟩
    have hlt : other.toNat < 256 := other.toNat_lt
    show (x.positions.set id.toNat _ id.toNat_lt)[other.toNat] = _
    rw [Vector.getElem_set]
    by_cases heq : other = id
    · rw [if_pos (congrArg UInt8.toNat heq.symm), if_pos heq]
    · rw [if_neg (fun hnat => heq (UInt8.toNat_inj.mp hnat).symm), if_neg heq]
      rfl
  · rw [if_neg hunused]
    exact .inr ⟨_, h.getElem?_position hunused, rfl, rfl⟩

theorem ids_modify {groups : List IndexedGroup} (k : Nat) :
    (groups.modify k (.add cookie p)).map (·.id) = groups.map (·.id) := by
  refine List.ext_getElem? fun i => ?_
  rw [List.getElem?_map, List.getElem?_map, List.getElem?_modify]
  cases groups[i]? with
  | none => rfl
  | some g =>
      by_cases hi : k = i
      · simp [hi]
      · simp [hi]

theorem Addressed.mem_ids_place_iff (h : x.Addressed) :
    other ∈ (x.place id cookie p).ids ↔ other ∈ x.ids ∨ other = id := by
  rcases h.place_cases id cookie p with ⟨-, hgroups, -⟩ | ⟨k, hk, hgroups, -⟩
  · rw [ids, hgroups, List.map_append, List.map_singleton, List.mem_append, List.mem_singleton,
      IndexedGroup.id_add]
    rfl
  · rw [ids, hgroups, ids_modify]
    refine ⟨.inl, fun hor => hor.elim (fun hmem => hmem) fun heq => ?_⟩
    rw [heq]
    exact List.mem_of_getElem? hk

/-- One more package keeps the table and the groups in step. -/
theorem Addressed.place (h : x.Addressed) (hzero : id ≠ 0) :
    (x.place id cookie p).Addressed := by
  rcases h.place_cases id cookie p with ⟨hnew, hgroups, hposition⟩ | ⟨k, -, hgroups, hpositions⟩
  · have hids : (x.place id cookie p).ids = x.ids ++ [id] := by
      rw [ids, hgroups, List.map_append, List.map_singleton, IndexedGroup.id_add]
      rfl
    constructor
    · rw [hids, List.mem_append, List.mem_singleton]
      exact fun hmem => hmem.elim h.nonzero (fun heq => hzero heq.symm)
    · rw [hids, List.nodup_append]
      refine ⟨h.distinct, List.pairwise_singleton _ _, fun a ha b hb hab => hnew ?_⟩
      rwa [← List.mem_singleton.mp hb, ← hab]
    · intro k other hk
      rw [hids, List.getElem?_append] at hk
      rw [hposition]
      split at hk
      · have hne : other ≠ id := fun heq => hnew (heq ▸ List.mem_of_getElem? hk)
        rw [if_neg hne]
        exact h.position_of k other hk
      · -- behind the others stands the new group
        next hbehind =>
        rw [List.getElem?_singleton] at hk
        split at hk
        · next hlast =>
          have hlength : x.ids.length = x.groups.length := List.length_map _
          rw [if_pos (Option.some.inj hk).symm]
          congr 1
          omega
        · cases hk
    · intro other hother
      rw [hids, List.mem_append, List.mem_singleton, not_or] at hother
      rw [hposition, if_neg hother.2]
      exact h.position_unused other hother.1
  · refine h.congr ?_ hpositions
    rw [ids, hgroups, ids_modify]
    rfl

/-- A group after a package was added: another one as before, or the one under its id with
the package behind the others. -/
theorem Addressed.of_mem_place (h : x.Addressed) {g : IndexedGroup}
    (hg : g ∈ (x.place id cookie p).groups) :
    (g ∈ x.groups ∧ g.id ≠ id) ∨
      ∃ before : IndexedGroup, g = before.add cookie p ∧ before.id = id ∧
        ((before = .start id p.package ∧ id ∉ x.ids) ∨ before ∈ x.groups) := by
  rcases h.place_cases id cookie p with ⟨hnew, hgroups, -⟩ | ⟨k, hk, hgroups, -⟩
  · rw [hgroups] at hg
    rcases List.mem_append.mp hg with hg | hg
    · exact .inl ⟨hg, fun heq => hnew (heq ▸ List.mem_map_of_mem hg)⟩
    · exact .inr ⟨_, List.mem_singleton.mp hg, rfl, .inl ⟨rfl, hnew⟩⟩
  · rw [hgroups] at hg
    obtain ⟨i, hi⟩ := List.mem_iff_getElem?.mp hg
    rw [List.getElem?_modify] at hi
    obtain ⟨before, hbefore, hchange⟩ := Option.map_eq_some_iff.mp hi
    have hid : x.ids[i]? = some before.id := getElem?_ids_eq_some_iff.mpr ⟨before, hbefore, rfl⟩
    have hmem := List.mem_of_getElem? hbefore
    by_cases hki : k = i
    · subst hki
      rw [if_pos rfl] at hchange
      exact .inr ⟨before, hchange.symm, Option.some.inj (hid.symm.trans hk), .inr hmem⟩
    · rw [if_neg hki] at hchange
      subst hchange
      refine .inl ⟨hmem, fun heq => hki ?_⟩
      rw [heq] at hid
      exact h.index_unique hk hid

/-! ## The packages that were added -/

/-- The number of shared libraries among some packages. -/
def librariesIn (done : List (Nat × AssetPackage)) : Nat :=
  done.countP (·.2.package.isDynamic)

/-- The id that a package is given behind others: its own one, or the next one of shared
libraries as long as one is left. -/
def givenId? (done : List (Nat × AssetPackage)) (p : AssetPackage) : Option UInt8 :=
  if p.package.isDynamic then
    if lastId < firstLibraryId + librariesIn done then none
    else some (UInt8.ofNat (firstLibraryId + librariesIn done))
  else some p.package.id

/-- The id that a package is given among others. -/
def Given (done : List (Nat × AssetPackage)) (e : Nat × AssetPackage) (id : UInt8) : Prop :=
  ∃ front back, done = front ++ e :: back ∧ givenId? front e.2 = some id

variable {done : List (Nat × AssetPackage)} {e last : Nat × AssetPackage}

theorem given_concat_iff :
    Given (done ++ [last]) e id ↔
      Given done e id ∨ (e = last ∧ givenId? done last.2 = some id) := by
  constructor
  · rintro ⟨front, back, hsplit, hid⟩
    cases back using List.reverseRecOn with
    | nil =>
        obtain ⟨rfl, hlast⟩ := List.append_inj' hsplit rfl
        obtain rfl := List.singleton_inj.mp hlast
        exact .inr ⟨rfl, hid⟩
    | append_singleton back _ =>
        rw [← List.cons_append, ← List.append_assoc] at hsplit
        obtain ⟨rfl, -⟩ := List.append_inj' hsplit rfl
        exact .inl ⟨front, back, rfl, hid⟩
  · rintro (⟨front, back, rfl, hid⟩ | ⟨rfl, hid⟩)
    · exact ⟨front, back ++ [last], by simp, hid⟩
    · exact ⟨done, [], rfl, hid⟩

/-- The groups are in step with the table and hold the packages that were added. -/
structure Collects (x : GroupIndex) (done : List (Nat × AssetPackage)) : Prop
    extends x.Addressed where
  /-- The next id of a library is behind those that were given. -/
  next : x.nextLibraryId = min (lastId + 1) (firstLibraryId + librariesIn done)
  /-- Every group pairs its packages with assets. -/
  paired : ∀ g ∈ x.groups, g.Paired
  /-- A group holds the packages with its id. -/
  mem_entries : ∀ g ∈ x.groups, ∀ e, e ∈ g.entries ↔ Given done e g.id
  /-- Every id that was given has a group. -/
  grouped : ∀ e id, Given done e id → id ∈ x.ids

theorem collects_start : ({} : GroupIndex).Collects [] := by
  have hnone : ∀ e id, ¬ Given [] e id := by
    rintro e id ⟨front, back, hsplit, -⟩
    exact List.cons_ne_nil _ _ (List.append_eq_nil_iff.mp hsplit.symm).2
  refine ⟨⟨List.not_mem_nil, List.nodup_nil, fun k id hk => ?_, fun id _ => ?_⟩, rfl,
    fun g hg => absurd hg List.not_mem_nil, fun g hg => absurd hg List.not_mem_nil,
    fun e id h => absurd h (hnone e id)⟩
  · cases hk
  · have hlt : id.toNat < 256 := id.toNat_lt
    show (Vector.replicate 256 0xff)[id.toNat] = _
    rw [Vector.getElem_replicate]
    rfl

/-- A package that is given an id is collected under it. -/
theorem Collects.place (h : x.Collects done) (hgiven : givenId? done p = some id)
    (hzero : id ≠ 0) {y : GroupIndex} (hgroups : y.groups = (x.place id cookie p).groups)
    (hpositions : y.positions = (x.place id cookie p).positions)
    (hnext : y.nextLibraryId =
      min (lastId + 1) (firstLibraryId + librariesIn (done ++ [(cookie, p)]))) :
    y.Collects (done ++ [(cookie, p)]) := by
  have hids : y.ids = (x.place id cookie p).ids := by rw [ids, hgroups, ids]
  have hy : y.Addressed := (h.toAddressed.place hzero).congr hids hpositions
  -- the group that the package joins holds what was given the id before
  have hcases : ∀ g ∈ y.groups, (g ∈ x.groups ∧ g.id ≠ id) ∨
      ∃ before : IndexedGroup, g = before.add cookie p ∧ before.id = id ∧
        before.packages.length = before.cookies.length ∧
        ∀ e, e ∈ before.entries ↔ Given done e id := by
    intro g hg
    rw [hgroups] at hg
    rcases h.of_mem_place hg with hother | ⟨before, rfl, hid, ⟨rfl, hnew⟩ | hbefore⟩
    · exact .inl hother
    · refine .inr ⟨_, rfl, hid, rfl, fun e => ⟨fun he => absurd he List.not_mem_nil, fun he => ?_⟩⟩
      exact absurd (h.grouped e id he) hnew
    · refine .inr ⟨before, rfl, hid, (h.paired before hbefore).length_eq, ?_⟩
      rw [← hid]
      exact h.mem_entries before hbefore
  refine ⟨hy, hnext, fun g hg => ?_, fun g hg e => ?_, fun e other he => ?_⟩
  · rcases hcases g hg with ⟨hg, -⟩ | ⟨before, rfl, -, hlength, -⟩
    · exact h.paired g hg
    · exact IndexedGroup.paired_add hlength
  · rw [given_concat_iff]
    rcases hcases g hg with ⟨hg, hne⟩ | ⟨before, rfl, hid, hlength, hentries⟩
    · rw [h.mem_entries g hg]
      refine ⟨.inl, fun he => he.resolve_right fun hlast => hne ?_⟩
      exact Option.some.inj (hlast.2.symm.trans hgiven)
    · rw [IndexedGroup.entries_add hlength, List.mem_append, List.mem_singleton, hentries,
        IndexedGroup.id_add, hid]
      exact or_congr_right ⟨fun he => ⟨he, hgiven⟩, And.left⟩
  · rw [hids, h.mem_ids_place_iff]
    rcases given_concat_iff.mp he with he | ⟨-, hlast⟩
    · exact .inl (h.grouped e other he)
    · exact .inr (Option.some.inj (hlast.symm.trans hgiven))

/-- A package without a run-time id of its own has an id that can be one. -/
def Numbered (e : Nat × AssetPackage) : Prop :=
  e.2.package.isDynamic = false → e.2.package.id ≠ 0

/-- One more package, if it is given an id, is collected under it. -/
theorem Collects.add (h : x.Collects done) (hnumbered : Numbered e) :
    (x.add e.1 e.2).Collects (done ++ [e]) := by
  obtain ⟨cookie, p⟩ := e
  have hnext := h.next
  unfold GroupIndex.add
  cases hdynamic : p.package.isDynamic with
  | false =>
      have hcount : librariesIn (done ++ [(cookie, p)]) = librariesIn done := by
        simp [librariesIn, hdynamic]
      have hgiven : givenId? done p = some p.package.id := by
        rw [givenId?, if_neg (by rw [hdynamic]; decide)]
      rw [if_neg (by decide)]
      refine h.place hgiven (hnumbered hdynamic) rfl rfl ?_
      rw [hcount, ← hnext]
      exact nextLibraryId_place
  | true =>
      have hcount : librariesIn (done ++ [(cookie, p)]) = librariesIn done + 1 := by
        simp [librariesIn, hdynamic]
      simp only [lastId, firstLibraryId] at hnext
      rw [if_pos rfl]
      by_cases hleft : lastId < firstLibraryId + librariesIn done
      · have hgiven : givenId? done p = none := by
          rw [givenId?, if_pos hdynamic, if_pos hleft]
        simp only [lastId, firstLibraryId] at hleft
        rw [if_pos (by simp only [lastId]; omega)]
        refine ⟨h.toAddressed, ?_, h.paired, fun g hg e => ?_, fun e id he => ?_⟩
        · rw [hcount, hnext]
          simp only [lastId, firstLibraryId]
          omega
        · rw [h.mem_entries g hg, given_concat_iff, hgiven]
          simp
        · rcases given_concat_iff.mp he with he | ⟨-, hlast⟩
          · exact h.grouped e id he
          · rw [hgiven] at hlast
            cases hlast
      · have hgiven : givenId? done p = some (UInt8.ofNat (firstLibraryId + librariesIn done)) := by
          rw [givenId?, if_pos hdynamic, if_neg hleft]
        simp only [lastId, firstLibraryId] at hleft
        have hsame : x.nextLibraryId = firstLibraryId + librariesIn done := by
          simp only [firstLibraryId]
          omega
        rw [if_neg (by simp only [lastId]; omega), hsame]
        refine h.place hgiven (fun hzero => ?_) rfl rfl ?_
        · have hnat := congrArg UInt8.toNat hzero
          simp only [UInt8.toNat_ofNat', firstLibraryId, UInt8.toNat_zero] at hnat
          omega
        · rw [hcount]
          simp only [lastId, firstLibraryId]
          omega

/-- The packages of some assets are collected. -/
theorem Collects.foldl_add (h : x.Collects done) {es : List (Nat × AssetPackage)}
    (hnumbered : ∀ e ∈ es, Numbered e) :
    (es.foldl (fun x e => x.add e.1 e.2) x).Collects (done ++ es) := by
  induction es generalizing x done with
  | nil => rwa [List.append_nil]
  | cons e es ih =>
      rw [List.forall_mem_cons] at hnumbered
      rw [List.foldl_cons, List.append_cons]
      exact ih (h.add hnumbered.1) hnumbered.2

/-! ## The packages of some assets -/

/-- The packages of some assets, each with the position of its asset. -/
def packagesOf (assets : List Asset) : List (Nat × AssetPackage) :=
  assets.zipIdx.flatMap fun a => a.1.table.packages.zipIdx.map fun p => (a.2, ⟨a.1, p.2, p.1⟩)

variable {assets : List Asset}

theorem foldl_addAsset (assets : List Asset) :
    assets.zipIdx.foldl (fun (x : GroupIndex) a => x.addAsset a.2 a.1) x =
      (packagesOf assets).foldl (fun x e => x.add e.1 e.2) x := by
  rw [packagesOf, List.foldl_flatMap]
  congr 1
  funext x a
  rw [List.foldl_map]
  rfl

theorem mem_packagesOf_iff :
    e ∈ packagesOf assets ↔
      assets[e.1]? = some e.2.asset ∧ e.2.asset.table.packages[e.2.index]? = some e.2.package := by
  obtain ⟨cookie, asset, index, package⟩ := e
  simp only [packagesOf, List.mem_flatMap, List.mem_map, Prod.exists, List.mem_zipIdx_iff_getElem?]
  constructor
  · rintro ⟨a, c, ha, p, i, hp, heq⟩
    cases heq
    exact ⟨ha, hp⟩
  · rintro ⟨ha, hp⟩
    exact ⟨asset, cookie, ha, package, index, hp, rfl⟩

/-- A package of an asset stands once among the packages of all assets. -/
theorem nodup_packagesOf (assets : List Asset) : (packagesOf assets).Nodup := by
  have hpositions : ∀ {α : Type} (xs : List α), (xs.zipIdx.map Prod.snd).Nodup := by
    intro α xs
    rw [List.zipIdx_map_snd]
    exact List.nodup_range'
  rw [packagesOf, List.nodup_flatMap]
  constructor
  · rintro ⟨a, c⟩ -
    refine List.Nodup.map_on ?_ (List.Nodup.of_map Prod.snd (hpositions _))
    rintro ⟨p, i⟩ - ⟨q, j⟩ - heq
    cases heq
    rfl
  · -- packages of different assets have different cookies
    refine (List.pairwise_map.mp (hpositions assets)).imp fun {a b} hne e ha hb => hne ?_
    obtain ⟨_, -, rfl⟩ := List.mem_map.mp ha
    obtain ⟨_, -, heq⟩ := List.mem_map.mp hb
    exact (congrArg Prod.fst heq).symm

/-- Where a package stands once, it is clear what is in front of it. -/
theorem front_unique {front back front' back' : List (Nat × AssetPackage)}
    (hnodup : (front ++ e :: back).Nodup) (h : front ++ e :: back = front' ++ e :: back') :
    front = front' := by
  have hnot := (List.nodup_cons.mp (List.nodup_middle.mp hnodup)).1
  rw [List.mem_append, not_or] at hnot
  exact ((List.append_cons_inj_of_notMem hnot.1 hnot.2).mp h).1

/-- Among packages that stand once each is given one id at most. -/
theorem Given.unique (hnodup : done.Nodup) (h : Given done e id) (hother : Given done e other) :
    id = other := by
  obtain ⟨front, back, rfl, hid⟩ := h
  obtain ⟨front', back', hsplit, hid'⟩ := hother
  rw [front_unique hnodup hsplit, hid'] at hid
  exact (Option.some.inj hid).symm

/-- A shared library for which no id is left behind those in front of it. -/
def Refused (assets : List Asset) (e : Nat × AssetPackage) : Prop :=
  ∃ front back, packagesOf assets = front ++ e :: back ∧ e.2.package.isDynamic = true ∧
    lastId < firstLibraryId + librariesIn front

theorem exists_given_iff :
    (∃ id, Given (packagesOf assets) e id) ↔ e ∈ packagesOf assets ∧ ¬ Refused assets e := by
  have hnodup := nodup_packagesOf assets
  constructor
  · rintro ⟨id, front, back, hsplit, hid⟩
    refine ⟨by rw [hsplit]; exact List.mem_append_right _ List.mem_cons_self, ?_⟩
    rintro ⟨front', back', hsplit', hdynamic, hleft⟩
    rw [hsplit] at hnodup hsplit'
    rw [givenId?, front_unique hnodup hsplit', if_pos hdynamic, if_pos hleft] at hid
    cases hid
  · rintro ⟨hmem, hrefused⟩
    obtain ⟨front, back, hsplit⟩ := List.append_of_mem hmem
    cases hgiven : givenId? front e.2 with
    | some id => exact ⟨id, front, back, hsplit, hgiven⟩
    | none =>
        rw [givenId?] at hgiven
        split at hgiven
        · next hdynamic =>
          split at hgiven
          · next hleft => exact absurd ⟨front, back, hsplit, hdynamic, hleft⟩ hrefused
          · cases hgiven
        · cases hgiven

/-! ## The index of some assets -/

/-- The groups and their table are sound for some assets. -/
structure Sound (x : GroupIndex) (assets : List Asset) : Prop where
  /-- The ids with a position and the groups are in one-to-one correspondence. -/
  bijOn : Set.BijOn (fun id => (x.position id).toNat) {id | x.position id ≠ unused}
    {k | k < x.groups.length}
  /-- At the position of an id stands the group with the id. -/
  at_position : ∀ id, x.position id ≠ unused →
    ∃ g, x.groups[(x.position id).toNat]? = some g ∧ g.id = id
  /-- No position is the mark of ids without a group. -/
  length_le : x.groups.length ≤ 255
  /-- Every group has packages, and pairs them with assets. -/
  paired : ∀ g ∈ x.groups, g.Paired
  /-- A package that is not refused is in exactly one group, with its asset. -/
  existsUnique_group : ∀ e ∈ packagesOf assets, ¬ Refused assets e →
    ∃! k : Nat, ∃ g : IndexedGroup, x.groups[k]? = some g ∧ e ∈ g.entries
  /-- No group has other packages. -/
  of_mem_entries : ∀ g ∈ x.groups, ∀ e ∈ g.entries, e ∈ packagesOf assets ∧ ¬ Refused assets e

theorem Collects.sound (h : x.Collects (packagesOf assets)) : x.Sound assets := by
  refine ⟨h.bijOn, fun id hused => ?_, h.length_le, h.paired, fun e he hrefused => ?_,
    fun g hg e he => ?_⟩
  · exact getElem?_ids_eq_some_iff.mp (h.getElem?_position hused)
  · obtain ⟨id, hgiven⟩ := exists_given_iff.mpr ⟨he, hrefused⟩
    obtain ⟨k, hk⟩ := List.mem_iff_getElem?.mp (h.grouped e id hgiven)
    obtain ⟨g, hg, rfl⟩ := getElem?_ids_eq_some_iff.mp hk
    refine ⟨k, ⟨g, hg, (h.mem_entries g (List.mem_of_getElem? hg) e).mpr hgiven⟩, ?_⟩
    rintro k' ⟨g', hg', he'⟩
    have hgiven' := (h.mem_entries g' (List.mem_of_getElem? hg') e).mp he'
    have hsame : g'.id = g.id := hgiven'.unique (nodup_packagesOf assets) hgiven
    exact h.index_unique (getElem?_ids_eq_some_iff.mpr ⟨g', hg', hsame⟩) hk
  · exact exists_given_iff.mp ⟨g.id, (h.mem_entries g hg e).mp he⟩

/-- Linking changes nothing but what groups know about each other. -/
theorem Collects.link {names : List (String × UInt8)} (h : x.Collects done) :
    ({ x with groups := x.groups.map (.link names) } : GroupIndex).Collects done := by
  have hid : ∀ g : IndexedGroup, (g.link names).id = g.id := fun g =>
    LibraryTable.ownId_foldl _ (fun _ _ => LibraryTable.ownId_mapName _ _) names
  have hids : ({ x with groups := x.groups.map (.link names) } : GroupIndex).ids = x.ids := by
    rw [ids, ids, List.map_map]
    exact List.map_congr_left fun g _ => hid g
  refine ⟨h.toAddressed.congr hids rfl, h.next, ?_, ?_, hids ▸ h.grouped⟩
  · intro g hg
    obtain ⟨g₀, hg₀, rfl⟩ := List.mem_map.mp hg
    exact ⟨(h.paired g₀ hg₀).nonempty, (h.paired g₀ hg₀).length_eq⟩
  · intro g hg e
    obtain ⟨g₀, hg₀, rfl⟩ := List.mem_map.mp hg
    rw [hid]
    exact h.mem_entries g₀ hg₀ e

theorem numbered_of_loaded (hloaded : ∀ a ∈ assets, a.Loaded) :
    ∀ e ∈ packagesOf assets, Numbered e := by
  intro e he
  obtain ⟨hasset, hpackage⟩ := mem_packagesOf_iff.mp he
  have hasset := hloaded _ (List.mem_of_getElem? hasset)
  exact (hasset.arranged _ (List.mem_of_getElem? hpackage)).1.id_ne_zero

theorem collects_ofAssets (hloaded : ∀ a ∈ assets, a.Loaded) :
    (ofAssets assets).Collects (packagesOf assets) := by
  unfold ofAssets
  rw [foldl_addAsset]
  exact (collects_start.foldl_add (numbered_of_loaded hloaded)).link

/-! ## The groups without a table -/

theorem toGroup_add {g : IndexedGroup} (h : g.packages.length = g.cookies.length) :
    (g.add cookie p).toGroup = g.toGroup.addMember cookie p.package := by
  unfold IndexedGroup.toGroup IndexedGroup.add PackageGroup.addMember
  rw [List.zipWith_append h.symm]
  rfl

theorem addTo_of_not_mem {groups : List PackageGroup} (h : id ∉ groups.map (·.id)) (q : Package) :
    PackageGroup.addTo id cookie q groups =
      groups ++ [(PackageGroup.start id q).addMember cookie q] := by
  induction groups with
  | nil => rfl
  | cons g groups ih =>
      rw [List.map_cons, List.mem_cons, not_or] at h
      rw [PackageGroup.addTo, if_neg (Ne.symm h.1), ih h.2, List.cons_append]

theorem addTo_of_getElem? {groups : List PackageGroup} (hnodup : (groups.map (·.id)).Nodup)
    {k : Nat} (h : (groups.map (·.id))[k]? = some id) (q : Package) :
    PackageGroup.addTo id cookie q groups = groups.modify k (.addMember cookie q) := by
  induction groups generalizing k with
  | nil => cases h
  | cons g groups ih =>
      rw [List.map_cons, List.nodup_cons] at hnodup
      cases k with
      | zero =>
          rw [PackageGroup.addTo, if_pos (Option.some.inj h)]
          rfl
      | succ k =>
          have hne : g.id ≠ id := fun heq => hnodup.1 (heq ▸ List.mem_of_getElem? h)
          rw [PackageGroup.addTo, if_neg hne, ih hnodup.2 h]
          rfl

/-- The same groups, found in two ways. -/
structure Matches (x : GroupIndex) (a : PackageGroup.Assembly) : Prop where
  groups : x.groups.map IndexedGroup.toGroup = a.groups
  next : x.nextLibraryId = a.nextLibraryId

theorem Collects.map_toGroup_place (h : x.Collects done) :
    (x.place id cookie p).groups.map IndexedGroup.toGroup =
      PackageGroup.addTo id cookie p.package (x.groups.map IndexedGroup.toGroup) := by
  have hids : (x.groups.map IndexedGroup.toGroup).map (·.id) = x.ids := by
    rw [List.map_map]
    rfl
  rcases h.place_cases id cookie p with ⟨hnew, hgroups, -⟩ | ⟨k, hk, hgroups, -⟩
  · rw [hgroups, addTo_of_not_mem (hids ▸ hnew), List.map_append]
    rfl
  · rw [hgroups, addTo_of_getElem? (hids ▸ h.distinct) (hids ▸ hk)]
    refine List.ext_getElem? fun i => ?_
    rw [List.getElem?_map, List.getElem?_modify, List.getElem?_modify, List.getElem?_map]
    cases hi : x.groups[i]? with
    | none => rfl
    | some g =>
        have hlength := (h.paired g (List.mem_of_getElem? hi)).length_eq
        by_cases hki : k = i
        · simp [hki, toGroup_add hlength]
        · simp [hki]

theorem Collects.matches_add (h : x.Collects done) {a : PackageGroup.Assembly}
    (hm : x.Matches a) : (x.add cookie p).Matches (a.add cookie p.package) := by
  obtain ⟨hgroups, hnext⟩ := hm
  have hplace : ∀ id, (x.place id cookie p).groups.map IndexedGroup.toGroup =
      PackageGroup.addTo id cookie p.package a.groups := by
    rw [← hgroups]
    exact fun id => h.map_toGroup_place
  unfold GroupIndex.add PackageGroup.Assembly.add
  rw [hnext]
  split
  · split
    · exact ⟨hgroups, hnext⟩
    · exact ⟨hplace _, rfl⟩
  · exact ⟨hplace _, nextLibraryId_place.trans hnext⟩

theorem Collects.matches_foldl (h : x.Collects done) {es : List (Nat × AssetPackage)}
    (hnumbered : ∀ e ∈ es, Numbered e) {a : PackageGroup.Assembly} (hm : x.Matches a) :
    (es.foldl (fun x e => x.add e.1 e.2) x).Matches
      (es.foldl (fun a e => a.add e.1 e.2.package) a) := by
  induction es generalizing x a done with
  | nil => exact hm
  | cons e es ih =>
      rw [List.forall_mem_cons] at hnumbered
      exact ih (h.add hnumbered.1) hnumbered.2 (h.matches_add hm)

theorem map_packagesOf (assets : List Asset) :
    (packagesOf assets).map (fun e => (e.1, e.2.package)) = PackageGroup.packagesFrom 0 assets := by
  have hfrom : ∀ n, ((assets.zipIdx n).flatMap fun a => a.1.table.packages.zipIdx.map fun p =>
      (a.2, (⟨a.1, p.2, p.1⟩ : AssetPackage))).map (fun e => (e.1, e.2.package)) =
        PackageGroup.packagesFrom n assets := by
    induction assets with
    | nil => exact fun n => rfl
    | cons a assets ih =>
        intro n
        rw [List.zipIdx_cons, List.flatMap_cons, List.map_append, ih, PackageGroup.packagesFrom,
          List.map_map]
        congr 1
        conv_rhs => rw [← List.zipIdx_map_fst 0 a.table.packages, List.map_map]
        rfl
  exact hfrom 0

theorem name?_toGroup {g : IndexedGroup} (h : g.packages.length = g.cookies.length) :
    g.toGroup.name? = g.name? := by
  obtain ⟨packages, cookies, libraries⟩ := g
  cases packages with
  | nil =>
      cases cookies with
      | nil => rfl
      | cons cookie cookies => cases h
  | cons p packages =>
      cases cookies with
      | nil => cases h
      | cons cookie cookies => rfl

theorem toGroup_link {groups : List IndexedGroup} (h : ∀ g ∈ groups, g.Paired)
    (g : IndexedGroup) :
    (g.link (IndexedGroup.assignedNames groups)).toGroup =
      g.toGroup.link (groups.map IndexedGroup.toGroup) := by
  have hlibraries : ∀ t : LibraryTable,
      (IndexedGroup.assignedNames groups).foldl (fun t n => t.mapName n.1 n.2) t =
        (groups.map IndexedGroup.toGroup).foldl PackageGroup.tie t := by
    induction groups with
    | nil => exact fun t => rfl
    | cons other groups ih =>
        rw [List.forall_mem_cons] at h
        intro t
        rw [IndexedGroup.assignedNames, List.filterMap_cons, List.map_cons, List.foldl_cons,
          PackageGroup.tie, name?_toGroup h.1.length_eq]
        cases other.name? with
        | none => exact ih h.2 t
        | some name => exact ih h.2 _
  exact congrArg (PackageGroup.mk g.toGroup.members) (hlibraries g.libraries)

/-- The groups are those that are collected without a table. -/
theorem groups_ofAssets (hloaded : ∀ a ∈ assets, a.Loaded) :
    (ofAssets assets).groups.map IndexedGroup.toGroup = PackageGroup.ofAssets assets := by
  have hnumbered := numbered_of_loaded hloaded
  have hcollects := collects_start.foldl_add hnumbered
  have hmatches := (collects_start.matches_foldl hnumbered (a := {}) ⟨rfl, rfl⟩).groups
  unfold ofAssets PackageGroup.ofAssets
  rw [foldl_addAsset, ← map_packagesOf, List.foldl_map, ← hmatches]
  simp only [List.map_map]
  exact List.map_congr_left fun g _ => toGroup_link hcollects.paired g

/-- The table leads to the group with an id. -/
theorem Addressed.find?_groups (h : x.Addressed) :
    x.groups.find? (·.id == id) = x.group? id := by
  unfold group?
  by_cases hunused : x.position id = unused
  · rw [if_pos hunused, List.find?_eq_none]
    intro g hg hid
    refine h.position_eq_unused_iff.mp hunused ?_
    rw [← beq_iff_eq.mp hid]
    exact List.mem_map_of_mem hg
  · rw [if_neg hunused]
    have hk := h.getElem?_position hunused
    obtain ⟨g, hg, hid⟩ := getElem?_ids_eq_some_iff.mp hk
    rw [hg, List.find?_eq_some_iff_getElem]
    obtain ⟨hlt, hget⟩ := List.getElem?_eq_some_iff.mp hg
    refine ⟨beq_iff_eq.mpr hid, _, hlt, hget, fun j hj => ?_⟩
    rw [Bool.not_eq_true', beq_eq_false_iff_ne]
    intro heq
    -- a group in front would have the id a second time
    have hother : x.ids[j]? = some id :=
      getElem?_ids_eq_some_iff.mpr ⟨_, List.getElem?_eq_getElem (by omega), heq⟩
    have hsame := h.index_unique hother hk
    omega

end GroupIndex

namespace Resources

variable {assets : List Asset}

/-- After some loaded assets were given, the table of positions is sound, and says where the
groups stand that lookups use. -/
theorem index_setAssets (r : Resources) (hloaded : ∀ a ∈ assets, a.Loaded) :
    (GroupIndex.ofAssets assets).Sound assets ∧
      (r.setAssets assets).groups =
        (GroupIndex.ofAssets assets).groups.map (fun g => g.toGroup.refit r.config) ∧
      ∀ id, (r.setAssets assets).group? id =
        ((GroupIndex.ofAssets assets).group? id).map fun g => g.toGroup.refit r.config := by
  have hcollects := GroupIndex.collects_ofAssets hloaded
  have hgroups := GroupIndex.groups_ofAssets hloaded
  have hset : (r.setAssets assets).groups =
      (GroupIndex.ofAssets assets).groups.map (fun g => g.toGroup.refit r.config) := by
    show (PackageGroup.ofAssets assets).map (PackageGroup.refit r.config) = _
    rw [← hgroups, List.map_map]
    rfl
  refine ⟨hcollects.sound, hset, fun id => ?_⟩
  rw [← hcollects.find?_groups, group?, hset, List.find?_map]
  rfl

/-- The index of an application and a library that gets its id at run time. -/
theorem index_setAssets_clientFirst :
    (∀ a ∈ clientFirst, a.Loaded) ∧ (GroupIndex.ofAssets clientFirst).Sound clientFirst ∧
      (GroupIndex.ofAssets clientFirst).position 0x7f = 0 ∧
      (GroupIndex.ofAssets clientFirst).position 2 = 1 ∧
      (GroupIndex.ofAssets clientFirst).position 1 = GroupIndex.unused := by
  refine ⟨loaded_clientFirst, (index_setAssets {} loaded_clientFirst).1, ?_, ?_, ?_⟩
  · decide +kernel
  · decide +kernel
  · decide +kernel

end Resources

end AppResources
