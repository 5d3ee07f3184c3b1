import AppResources.Resources

/-!
# The ids of shared libraries

Shared libraries get their ids one after the other, from the first one on, in the order in
which they come. The counter looks neither at the ids that are reserved nor at those that
other packages bring along. So the library with the number 125, counted from zero, gets the
id of applications, and a library joins every other package whose own id lies among those
that were handed out.

The groups of some assets are described first: they hold exactly the packages under the ids
that were given to them. What libraries share then is a question about a list of ids.

## Main definitions

* `PackageGroup.assigned`: the packages with the ids under which they are grouped.
* `Resources.LibrariesApart`: no library has a reserved id or shares its group.
* `RoomForLibraries`: the ids that are handed out are neither reserved nor taken.

## Main results

* `librariesApart_iff`: libraries are apart exactly if there is room for them.
-/

namespace AppResources

namespace LibraryTable

variable {t : LibraryTable}

@[simp]
theorem ownId_mapName (name : String) (id : UInt8) : (t.mapName name id).ownId = t.ownId := by
  unfold mapName
  split <;> rfl

theorem ownId_foldl {α : Type} (step : LibraryTable → α → LibraryTable)
    (hstep : ∀ t a, (step t a).ownId = t.ownId) (items : List α) :
    (items.foldl step t).ownId = t.ownId := by
  induction items generalizing t with
  | nil => rfl
  | cons a items ih => rw [List.foldl_cons, ih, hstep]

end LibraryTable

namespace PackageGroup

variable {g : PackageGroup} {groups : List PackageGroup} {assets : List Asset}

/-! ## Groups keep their id -/

@[simp]
theorem id_addMember (cookie : Nat) (p : Package) : (g.addMember cookie p).id = g.id :=
  LibraryTable.ownId_foldl (fun t (l : Library) => t.addLibrary l.name l.buildId)
    (fun _ _ => rfl) p.libraries

@[simp]
theorem id_link : (link groups g).id = g.id := by
  refine LibraryTable.ownId_foldl _ (fun t other => ?_) groups
  cases other.name? with
  | some name => exact LibraryTable.ownId_mapName _ _
  | none => rfl

/-! ## The ids that packages are given -/

/-- A package under the id of its group. -/
structure Assigned where
  /-- The id. -/
  id : UInt8
  /-- The position of the asset of the package. -/
  cookie : Nat
  /-- The package. -/
  package : Package

/-- The member that a package becomes. -/
def Assigned.member (x : Assigned) : GroupMember := ⟨x.cookie, x.package, []⟩

/-- The packages that are given an id, where `next` is the id of the next library. -/
def assignedFrom : Nat → List (Nat × Package) → List Assigned
  | _, [] => []
  | next, (cookie, p) :: rest =>
    if p.isDynamic then
      if lastId < next then assignedFrom next rest
      else ⟨UInt8.ofNat next, cookie, p⟩ :: assignedFrom (next + 1) rest
    else ⟨p.id, cookie, p⟩ :: assignedFrom next rest

/-- The packages of some assets with the ids that they are given. -/
def assigned (assets : List Asset) : List Assigned :=
  assignedFrom firstLibraryId (packagesFrom 0 assets)

/-- Adds a package under its id. -/
def place (groups : List PackageGroup) (x : Assigned) : List PackageGroup :=
  addTo x.id x.cookie x.package groups

theorem groups_foldl_add (entries : List (Nat × Package)) (a : Assembly) :
    (entries.foldl (fun (a : Assembly) e => a.add e.1 e.2) a).groups =
      (assignedFrom a.nextLibraryId entries).foldl place a.groups := by
  induction entries generalizing a with
  | nil => rfl
  | cons e entries ih =>
      obtain ⟨cookie, p⟩ := e
      rw [List.foldl_cons, ih, assignedFrom]
      unfold Assembly.add
      split
      · split
        · rfl
        · rfl
      · rfl

/-! ## Groups hold the packages under their id -/

/-- Groups with distinct ids that hold the given packages, each under its id. -/
structure Hold (groups : List PackageGroup) (xs : List Assigned) : Prop where
  /-- A group holds the packages under its id, in order. -/
  members : ∀ g ∈ groups, g.members = (xs.filter (·.id == g.id)).map Assigned.member
  /-- Every package has a group. -/
  grouped : ∀ x ∈ xs, x.id ∈ groups.map id
  /-- There is one group for an id. -/
  distinct : (groups.map id).Nodup

theorem hold_nil : Hold [] [] :=
  ⟨fun _ hg => absurd hg List.not_mem_nil, fun _ hx => absurd hx List.not_mem_nil, List.nodup_nil⟩

theorem map_id_place (x : Assigned) :
    (place groups x).map id =
      if x.id ∈ groups.map id then groups.map id else groups.map id ++ [x.id] := by
  unfold place
  induction groups with
  | nil =>
      show [((start x.id x.package).addMember x.cookie x.package).id] = [x.id]
      rw [id_addMember]
      rfl
  | cons g groups ih =>
      unfold addTo
      by_cases hid : g.id = x.id
      · rw [if_pos hid]
        simp [hid]
      · rw [if_neg hid, List.map_cons, ih, List.map_cons]
        by_cases hmem : x.id ∈ groups.map id
        · rw [if_pos hmem, if_pos (List.mem_cons_of_mem _ hmem)]
        · rw [if_neg hmem, if_neg (by simpa [Ne.symm hid] using hmem), List.cons_append]

/-- A group after a package was added: another one as before, or the one under its id with
the package as its last member. -/
theorem of_mem_place {x : Assigned} (hdistinct : (groups.map id).Nodup)
    (hg : g ∈ place groups x) :
    (g ∈ groups ∧ g.id ≠ x.id) ∨
      (g.id = x.id ∧ ∃ before : List GroupMember, g.members = before ++ [x.member] ∧
        ((before = [] ∧ x.id ∉ groups.map id) ∨ ∃ g₀ ∈ groups, g₀.id = x.id ∧ g₀.members = before)) := by
  unfold place at hg
  induction groups with
  | nil =>
      obtain rfl := List.mem_singleton.mp hg
      exact Or.inr ⟨id_addMember _ _, [], rfl, Or.inl ⟨rfl, List.not_mem_nil⟩⟩
  | cons g₀ groups ih =>
      rw [List.map_cons, List.nodup_cons] at hdistinct
      unfold addTo at hg
      by_cases hid : g₀.id = x.id
      · rw [if_pos hid] at hg
        rcases List.mem_cons.mp hg with rfl | hg
        · exact Or.inr ⟨(id_addMember _ _).trans hid, g₀.members, rfl,
            Or.inr ⟨g₀, List.mem_cons_self, hid, rfl⟩⟩
        · refine Or.inl ⟨List.mem_cons_of_mem _ hg, fun heq => hdistinct.1 ?_⟩
          rw [hid, ← heq]
          exact List.mem_map_of_mem hg
      · rw [if_neg hid] at hg
        rcases List.mem_cons.mp hg with rfl | hg
        · exact Or.inl ⟨List.mem_cons_self, hid⟩
        · rcases ih hdistinct.2 hg with ⟨hmem, hne⟩ | ⟨heq, before, hbefore, hnew | hold⟩
          · exact Or.inl ⟨List.mem_cons_of_mem _ hmem, hne⟩
          · refine Or.inr ⟨heq, before, hbefore, Or.inl ⟨hnew.1, ?_⟩⟩
            simpa [Ne.symm hid] using hnew.2
          · obtain ⟨other, hother, hrest⟩ := hold
            exact Or.inr ⟨heq, before, hbefore, Or.inr ⟨other, List.mem_cons_of_mem _ hother, hrest⟩⟩

theorem Hold.place {xs : List Assigned} (h : Hold groups xs) (x : Assigned) :
    Hold (place groups x) (xs ++ [x]) where
  members g hg := by
    rcases of_mem_place h.distinct hg with ⟨hmem, hne⟩ | ⟨hid, before, hmembers, hcase⟩
    · have hother : [x].filter (·.id == g.id) = [] := by simpa using Ne.symm hne
      rw [h.members g hmem, List.filter_append, hother, List.append_nil]
    · have hbefore : (xs.filter (·.id == x.id)).map Assigned.member = before := by
        rcases hcase with ⟨rfl, hnew⟩ | ⟨g₀, hg₀, hid₀, hmembers₀⟩
        · rw [List.map_eq_nil_iff, List.filter_eq_nil_iff]
          intro y hy hyid
          exact hnew (beq_iff_eq.mp hyid ▸ h.grouped y hy)
        · rw [← hmembers₀, h.members g₀ hg₀, hid₀]
      rw [hmembers, hid, List.filter_append, List.map_append, hbefore]
      simp
  grouped y hy := by
    rw [map_id_place]
    rcases List.mem_append.mp hy with hy | hy
    · have hmem := h.grouped y hy
      split
      · exact hmem
      · exact List.mem_append_left _ hmem
    · obtain rfl := List.mem_singleton.mp hy
      split
      · assumption
      · exact List.mem_append_right _ List.mem_cons_self
  distinct := by
    rw [map_id_place]
    split
    · exact h.distinct
    · next hnew =>
        rw [List.nodup_append]
        refine ⟨h.distinct, List.pairwise_singleton _ _, fun a ha b hb hab => hnew ?_⟩
        rwa [← List.mem_singleton.mp hb, ← hab]

theorem Hold.foldl_place {xs : List Assigned} (h : Hold groups xs) (ys : List Assigned) :
    Hold (ys.foldl PackageGroup.place groups) (xs ++ ys) := by
  induction ys generalizing groups xs with
  | nil => rwa [List.append_nil]
  | cons y ys ih =>
      rw [List.foldl_cons, List.append_cons]
      exact ih (h.place y)

/-- The groups of some assets hold their packages under the ids that they were given. -/
theorem hold_ofAssets (assets : List Asset) : Hold (ofAssets assets) (assigned assets) := by
  have h := hold_nil.foldl_place (assigned assets)
  rw [List.nil_append] at h
  have hgroups : ofAssets assets =
      ((assigned assets).foldl place []).map (link ((assigned assets).foldl place [])) := by
    show (((packagesFrom 0 assets).foldl (fun (a : Assembly) e => a.add e.1 e.2) {}).groups).map
      (link ((packagesFrom 0 assets).foldl (fun (a : Assembly) e => a.add e.1 e.2) {}).groups) = _
    rw [groups_foldl_add]
    rfl
  have hids : (ofAssets assets).map id = ((assigned assets).foldl place []).map id := by
    rw [hgroups, List.map_map]
    exact List.map_congr_left fun g _ => id_link
  refine ⟨fun g hg => ?_, hids ▸ h.grouped, hids ▸ h.distinct⟩
  rw [hgroups] at hg
  obtain ⟨g₀, hg₀, rfl⟩ := List.mem_map.mp hg
  rw [id_link]
  exact h.members g₀ hg₀

/-! ## The ids that are handed out -/

/-- Whether a package is a shared library. -/
def isLibrary (e : Nat × Package) : Bool := e.2.isDynamic

variable {next : Nat} {entries : List (Nat × Package)} {x : Assigned}

/-- A package that was given an id has its own id, or is a library with one of the next ids. -/
theorem of_mem_assignedFrom (h : x ∈ assignedFrom next entries) :
    (x.cookie, x.package) ∈ entries ∧
      (x.package.isDynamic = false → x.id = x.package.id) ∧
      (x.package.isDynamic = true →
        next ≤ x.id.toNat ∧ x.id.toNat < next + entries.countP isLibrary) := by
  induction entries generalizing next with
  | nil => exact absurd h List.not_mem_nil
  | cons e entries ih =>
      obtain ⟨cookie, p⟩ := e
      unfold assignedFrom at h
      cases hp : p.isDynamic with
      | true =>
          have hcount : ((cookie, p) :: entries).countP isLibrary = entries.countP isLibrary + 1 :=
            List.countP_cons_of_pos hp
          rw [hcount]
          rw [if_pos hp] at h
          split at h
          · obtain ⟨hmem, hown, hnext⟩ := ih h
            refine ⟨List.mem_cons_of_mem _ hmem, hown, fun hx => ?_⟩
            have := hnext hx
            omega
          · next hleft =>
              rcases List.mem_cons.mp h with rfl | h
              · have hid : (UInt8.ofNat next).toNat = next := by
                  rw [UInt8.toNat_ofNat']
                  simp only [lastId] at hleft
                  omega
                refine ⟨List.mem_cons_self, fun hx => absurd (hx.symm.trans hp) (by decide),
                  fun _ => ?_⟩
                dsimp only
                omega
              · obtain ⟨hmem, hown, hnext⟩ := ih h
                refine ⟨List.mem_cons_of_mem _ hmem, hown, fun hx => ?_⟩
                have := hnext hx
                omega
      | false =>
          have hcount : ((cookie, p) :: entries).countP isLibrary = entries.countP isLibrary :=
            List.countP_cons_of_neg (by rw [isLibrary, hp]; decide)
          rw [hcount]
          rw [if_neg (by rw [hp]; decide)] at h
          rcases List.mem_cons.mp h with rfl | h
          · exact ⟨List.mem_cons_self, fun _ => rfl, fun hx => absurd (hx.symm.trans hp) (by decide)⟩
          · obtain ⟨hmem, hown, hnext⟩ := ih h
            exact ⟨List.mem_cons_of_mem _ hmem, hown, hnext⟩

/-- Every one of the next ids is given to a library, as far as there are libraries and ids. -/
theorem exists_library {k : Nat} (hk : next ≤ k) (hcount : k < next + entries.countP isLibrary)
    (hlast : k ≤ lastId) :
    ∃ x ∈ assignedFrom next entries, x.package.isDynamic = true ∧ x.id.toNat = k := by
  induction entries generalizing next with
  | nil => simp at hcount; omega
  | cons e entries ih =>
      obtain ⟨cookie, p⟩ := e
      unfold assignedFrom
      cases hp : p.isDynamic with
      | true =>
          rw [List.countP_cons_of_pos (show isLibrary (cookie, p) = true from hp)] at hcount
          rw [if_pos rfl, if_neg (by omega)]
          by_cases hfirst : k = next
          · refine ⟨_, List.mem_cons_self, hp, ?_⟩
            rw [UInt8.toNat_ofNat', hfirst]
            simp only [lastId] at hlast
            omega
          · obtain ⟨x, hx, hdynamic, hid⟩ := @ih (next + 1) (by omega) (by omega)
            exact ⟨x, List.mem_cons_of_mem _ hx, hdynamic, hid⟩
      | false =>
          rw [List.countP_cons_of_neg (by rw [isLibrary, hp]; decide)] at hcount
          rw [if_neg (by decide)]
          obtain ⟨x, hx, hdynamic, hid⟩ := ih hk hcount
          exact ⟨x, List.mem_cons_of_mem _ hx, hdynamic, hid⟩

/-- No two libraries get one id. -/
theorem pairwise_assignedFrom :
    (assignedFrom next entries).Pairwise fun x y =>
      x.package.isDynamic = true → y.package.isDynamic = true → x.id ≠ y.id := by
  induction entries generalizing next with
  | nil => exact List.Pairwise.nil
  | cons e entries ih =>
      obtain ⟨cookie, p⟩ := e
      unfold assignedFrom
      split
      · next hp =>
          split
          · exact ih
          · next hleft =>
              refine List.pairwise_cons.mpr ⟨fun y hy _ hdynamic heq => ?_, ih⟩
              -- the libraries behind the first one have greater ids
              have hlater := ((of_mem_assignedFrom hy).2.2 hdynamic).1
              have hid : (UInt8.ofNat next).toNat = next := by
                rw [UInt8.toNat_ofNat']
                simp only [lastId] at hleft
                omega
              rw [← heq] at hlater
              dsimp only at hlater
              omega
      · next hp =>
          refine List.pairwise_cons.mpr ⟨fun y _ hx => absurd hx hp, ih⟩

/-- Packages behind others are given their ids as if they came alone, with a later id for the
next library. -/
theorem exists_assignedFrom_append (next : Nat) (front : List (Nat × Package)) :
    ∃ later, ∀ back, assignedFrom next (front ++ back) =
      assignedFrom next front ++ assignedFrom later back := by
  induction front generalizing next with
  | nil => exact ⟨next, fun _ => rfl⟩
  | cons e front ih =>
      obtain ⟨cookie, p⟩ := e
      simp only [List.cons_append, assignedFrom]
      split
      · split
        · exact ih next
        · obtain ⟨later, hlater⟩ := ih (next + 1)
          exact ⟨later, fun back => congrArg _ (hlater back)⟩
      · obtain ⟨later, hlater⟩ := ih next
        exact ⟨later, fun back => congrArg _ (hlater back)⟩

/-- A package under its own id. -/
def Assigned.own (e : Nat × Package) : Assigned := ⟨e.2.id, e.1, e.2⟩

theorem assignedFrom_of_static (h : ∀ e ∈ entries, e.2.isDynamic = false) :
    assignedFrom next entries = entries.map Assigned.own := by
  induction entries with
  | nil => rfl
  | cons e entries ih =>
      obtain ⟨cookie, p⟩ := e
      obtain ⟨hp, hentries⟩ := List.forall_mem_cons.mp h
      have hstatic : ¬ p.isDynamic = true := by
        rw [show p.isDynamic = false from hp]
        decide
      rw [assignedFrom, if_neg hstatic, ih hentries]
      rfl

theorem packagesFrom_append (cookie : Nat) (front back : List Asset) :
    packagesFrom cookie (front ++ back) =
      packagesFrom cookie front ++ packagesFrom (cookie + front.length) back := by
  induction front generalizing cookie with
  | nil => rfl
  | cons a front ih =>
      rw [List.cons_append, packagesFrom, packagesFrom, ih, List.append_assoc, List.length_cons,
        Nat.add_assoc, Nat.add_comm 1]

theorem map_package_packagesFrom (cookie : Nat) :
    (packagesFrom cookie assets).map (·.2) = assets.flatMap (·.table.packages) := by
  induction assets generalizing cookie with
  | nil => rfl
  | cons a assets ih =>
      rw [packagesFrom, List.map_append, ih, List.flatMap_cons, List.map_map]
      congr 1
      exact List.map_id _

theorem mem_packagesFrom_iff {cookie : Nat} {p : Package} :
    (∃ c, (c, p) ∈ packagesFrom cookie assets) ↔ ∃ a ∈ assets, p ∈ a.table.packages := by
  rw [← List.mem_flatMap, ← map_package_packagesFrom cookie]
  simp

/-- The number of shared libraries among the packages of some assets. -/
def libraryCount (assets : List Asset) : Nat :=
  (assets.flatMap (·.table.packages)).countP (·.isDynamic)

theorem countP_isLibrary : (packagesFrom 0 assets).countP isLibrary = libraryCount assets := by
  unfold libraryCount
  rw [← map_package_packagesFrom 0, List.countP_map]
  rfl

end PackageGroup

/-! ## Libraries that are apart -/

open PackageGroup

/-- No library has the id of the framework or of applications, or that of a package that is
no library; and every library is alone in its group. -/
def Resources.LibrariesApart (r : Resources) : Prop :=
  ∀ g ∈ r.groups, ∀ m ∈ g.members, m.package.isDynamic = true →
    g.id ≠ ResourceId.frameworkPackage ∧ g.id ≠ ResourceId.appPackage ∧
      (∀ a ∈ r.assets, ∀ p ∈ a.table.packages, p.isDynamic = false → p.id ≠ g.id) ∧
      g.members = [m]

/-- The ids from the first one for libraries on are enough for all libraries without that of
applications, and no other package has one of them. -/
def RoomForLibraries (assets : List Asset) : Prop :=
  firstLibraryId + libraryCount assets ≤ ResourceId.appPackage.toNat ∧
    ∀ a ∈ assets, ∀ p ∈ a.table.packages, p.isDynamic = false →
      p.id.toNat < firstLibraryId ∨ firstLibraryId + libraryCount assets ≤ p.id.toNat

variable {assets : List Asset} {x : Assigned}

theorem id_lt_of_mem_assigned (hx : x ∈ assigned assets) (hdynamic : x.package.isDynamic = true) :
    firstLibraryId ≤ x.id.toNat ∧ x.id.toNat < firstLibraryId + libraryCount assets := by
  rw [← countP_isLibrary]
  exact (of_mem_assignedFrom hx).2.2 hdynamic

/-- Only libraries have the id of a library. -/
theorem RoomForLibraries.isDynamic (h : RoomForLibraries assets) (hx : x ∈ assigned assets)
    (hdynamic : x.package.isDynamic = true) {y : Assigned} (hy : y ∈ assigned assets)
    (hid : y.id = x.id) : y.package.isDynamic = true := by
  obtain ⟨hlow, hhigh⟩ := id_lt_of_mem_assigned hx hdynamic
  obtain ⟨hmem, hown, -⟩ := of_mem_assignedFrom hy
  cases hother : y.package.isDynamic with
  | true => rfl
  | false =>
      obtain ⟨a, ha, hp⟩ := mem_packagesFrom_iff.mp ⟨y.cookie, hmem⟩
      have hroom := h.2 a ha y.package hp hother
      rw [← hown hother, hid] at hroom
      omega

theorem filter_eq_singleton {xs : List Assigned}
    (hdistinct : xs.Pairwise fun x y =>
      x.package.isDynamic = true → y.package.isDynamic = true → x.id ≠ y.id)
    (hx : x ∈ xs) (hsame : ∀ y ∈ xs, y.id = x.id → y.package.isDynamic = true) :
    xs.filter (·.id == x.id) = [x] := by
  have hdynamic := hsame x hx rfl
  induction xs with
  | nil => exact absurd hx List.not_mem_nil
  | cons y xs ih =>
      obtain ⟨hhead, htail⟩ := List.pairwise_cons.mp hdistinct
      obtain ⟨hy, hrest⟩ := List.forall_mem_cons.mp hsame
      rcases List.mem_cons.mp hx with rfl | hx
      · have hnone : xs.filter (·.id == x.id) = [] := by
          rw [List.filter_eq_nil_iff]
          intro z hz hid
          have heq : z.id = x.id := beq_iff_eq.mp hid
          exact hhead z hz hdynamic (hrest z hz heq) heq.symm
        rw [List.filter_cons, if_pos (beq_self_eq_true x.id), hnone]
      · have hne : y.id ≠ x.id := fun heq => hhead x hx (hy heq) hdynamic heq
        rw [List.filter_cons, if_neg (by simpa using hne)]
        exact ih htail hx hrest

namespace Resources

/-- The groups after the assets were given, before their variants are found. -/
theorem exists_of_mem_setAssets {r : Resources} {g : PackageGroup}
    (hg : g ∈ (r.setAssets assets).groups) :
    ∃ g₀ ∈ ofAssets assets, g = g₀.refit r.config := by
  obtain ⟨g₀, hg₀, rfl⟩ := List.mem_map.mp hg
  exact ⟨g₀, hg₀, rfl⟩

/-- A package that was given an id is a member of the group with that id. -/
theorem exists_member (r : Resources) (hx : x ∈ assigned assets) :
    ∃ g ∈ (r.setAssets assets).groups, g.id = x.id ∧
      ∃ m ∈ g.members, m.package = x.package := by
  have hold := hold_ofAssets assets
  obtain ⟨g, hg, hid⟩ := List.mem_map.mp (hold.grouped x hx)
  refine ⟨g.refit r.config, List.mem_map_of_mem hg, hid, x.member.refit r.config, ?_, rfl⟩
  refine List.mem_map_of_mem ?_
  rw [hold.members g hg]
  exact List.mem_map_of_mem (List.mem_filter.mpr ⟨hx, beq_iff_eq.mpr hid.symm⟩)

/-- After some assets were given the libraries are apart exactly if there is room for them. -/
theorem librariesApart_iff (r : Resources) (assets : List Asset) :
    (r.setAssets assets).LibrariesApart ↔ RoomForLibraries assets := by
  constructor
  · intro h
    have hlibrary : ∀ k, firstLibraryId ≤ k → k < firstLibraryId + libraryCount assets →
        k ≤ lastId → ∃ g ∈ (r.setAssets assets).groups, g.id.toNat = k ∧
          ∃ m ∈ g.members, m.package.isDynamic = true := by
      intro k hlow hhigh hlast
      rw [← countP_isLibrary] at hhigh
      obtain ⟨x, hx, hdynamic, hk⟩ := exists_library hlow hhigh hlast
      obtain ⟨g, hg, hid, m, hm, hpackage⟩ := exists_member r hx
      exact ⟨g, hg, hid ▸ hk, m, hm, hpackage ▸ hdynamic⟩
    constructor
    · refine Nat.le_of_not_lt fun hlt => ?_
      obtain ⟨g, hg, hid, m, hm, hdynamic⟩ := hlibrary ResourceId.appPackage.toNat
        (by decide) hlt (by decide)
      exact (h g hg m hm hdynamic).2.1 (UInt8.toNat_inj.mp hid)
    · intro a ha p hp hstatic
      refine Decidable.byContradiction fun hbad => ?_
      have hbound := p.id.toNat_lt
      obtain ⟨g, hg, hid, m, hm, hdynamic⟩ := hlibrary p.id.toNat (by omega) (by omega)
        (by simp only [lastId]; omega)
      exact (h g hg m hm hdynamic).2.2.1 a ha p hp hstatic (UInt8.toNat_inj.mp hid.symm)
  · intro h g hg m hm hdynamic
    obtain ⟨g₀, hg₀, rfl⟩ := exists_of_mem_setAssets hg
    obtain ⟨m₀, hm₀, rfl⟩ := List.mem_map.mp hm
    have hmembers := (hold_ofAssets assets).members g₀ hg₀
    have hmem := hm₀
    rw [hmembers] at hmem
    obtain ⟨x, hx, rfl⟩ := List.mem_map.mp hmem
    obtain ⟨hx, hsame⟩ := List.mem_filter.mp hx
    have hid : x.id = g₀.id := beq_iff_eq.mp hsame
    have halone : (assigned assets).filter (·.id == x.id) = [x] :=
      filter_eq_singleton pairwise_assignedFrom hx fun y hy hyid => h.isDynamic hx hdynamic hy hyid
    obtain ⟨hlow, hhigh⟩ := id_lt_of_mem_assigned hx hdynamic
    have hroom := h.1
    rw [hid] at hlow hhigh
    refine ⟨fun heq => ?_, fun heq => ?_, fun a ha p hp hstatic heq => ?_, ?_⟩
    · have : g₀.id = ResourceId.frameworkPackage := heq
      rw [this] at hlow
      exact absurd hlow (by decide)
    · have : g₀.id = ResourceId.appPackage := heq
      rw [this] at hhigh
      omega
    · have hother := h.2 a ha p hp hstatic
      have : p.id = g₀.id := heq
      rw [this] at hother
      omega
    · show g₀.members.map (GroupMember.refit r.config) = [x.member.refit r.config]
      rw [hmembers, ← hid, halone]
      rfl

/-- A package without resources. -/
def bare (name : String) (id : UInt8) (isDynamic : Bool) : Package where
  name := name
  id := id
  typeIdOffset := 0
  isDynamic := isDynamic
  isSystem := false
  isOverlay := false
  typeNames := none
  keyNames := none
  slots := []
  libraries := []

/-- So many libraries that the last one gets the id of the application behind them. -/
def crowd : List Asset :=
  [⟨"libs", { packages := List.replicate 126 (bare "lib" 0 true) }, none⟩,
    ⟨"app", { packages := [bare "app" ResourceId.appPackage false] }, none⟩]

/-- Libraries are not always apart. -/
theorem not_librariesApart :
    ¬ ∀ (r : Resources) (assets : List Asset), (r.setAssets assets).LibrariesApart := by
  intro h
  have hshared : ((({} : Resources).setAssets crowd).groups.any fun g =>
      g.id == ResourceId.appPackage && g.members.any (·.package.isDynamic)) = true := by
    decide +kernel
  obtain ⟨g, hg, hboth⟩ := List.any_eq_true.mp hshared
  obtain ⟨hid, hany⟩ := Bool.and_eq_true_iff.mp hboth
  obtain ⟨m, hm, hdynamic⟩ := List.any_eq_true.mp hany
  exact (h {} crowd g hg m hm hdynamic).2.1 (beq_iff_eq.mp hid)

end Resources

end AppResources
