import AppResources.Proofs.LoadedAssets
import AppResources.Proofs.RenamedIds

/-!
# Applications that are loaded as libraries

A file that is loaded as a library gives the asset that it gives by itself, but its application
packages get their ids at run time; everything else in the file is read alike, and the same
files are refused. A device with nothing but one package has one group, which has the id of the
package, or that of the first library.

## Main definitions

* `Asset.asLibrary`, `PackageGroup.asLibrary`: applications as libraries.

## Main results

* `loadAsLibrary_eq`: what is loaded as a library.
* `ofAssets_singleton`: the group of a single package.
-/

namespace AppResources

/-! ## What is loaded -/

/-- An application as a package that gets its id at run time. -/
def Package.asLibrary (p : Package) : Package :=
  { p with isDynamic := p.isDynamic || p.id == ResourceId.appPackage }

/-- A table whose applications are libraries. -/
def Table.asLibrary (t : Table) : Table := { t with packages := t.packages.map .asLibrary }

/-- An asset whose applications are libraries. -/
def Asset.asLibrary (a : Asset) : Asset := { a with table := a.table.asLibrary }

theorem Package.load_asLibrary (c : Chunk) (system : Bool) :
    load c { system := system, asLibrary := true } =
      (load c { system := system }).map asLibrary := by
  have hcontent : ∀ header found slots,
      ofContent { system := system, asLibrary := true } header found slots =
        (ofContent { system := system } header found slots).asLibrary := by
    intro header found slots
    simp [ofContent, asLibrary]
  -- the header, the walk and the chunks do not depend on it
  unfold load
  split
  · rfl
  split
  · rfl
  split
  · rfl
  split
  · rfl
  split
  · rfl
  dsimp only [bind, Except.bind]
  split
  · rfl
  split
  · rfl
  split
  · rfl
  exact congrArg Except.ok (hcontent ..)

/-- A package that is loaded by itself gets its id at run time only if it has none. -/
theorem Package.isDynamic_of_load {c : Chunk} {system : Bool} {p : Package}
    (h : load c { system := system } = .ok p) : p.isDynamic = (p.id == 0) := by
  obtain ⟨header, found, slots, -, rfl⟩ := load_eq_ok_iff.mp h
  simp [ofContent]

namespace Table

theorem addChunk_asLibrary (system : Bool) (declared : UInt32) (state : Table × Nat) (c : Chunk) :
    addChunk { system := system, asLibrary := true } declared (state.1.asLibrary, state.2) c =
      (addChunk { system := system } declared state c).map fun s => (s.1.asLibrary, s.2) := by
  obtain ⟨table, seen⟩ := state
  have hstrings : table.asLibrary.strings = table.strings := rfl
  unfold addChunk
  dsimp only
  split
  · rw [hstrings]
    split
    · rfl
    split <;> rfl
  · split
    · rfl
    rw [Package.load_asLibrary]
    cases Package.load c { system := system } with
    | error e => rfl
    | ok p => simp [Except.map, asLibrary]
  · rfl

theorem addTable_asLibrary (system : Bool) (table : Table) (c : Chunk) :
    addTable { system := system, asLibrary := true } table.asLibrary c =
      (addTable { system := system } table c).map asLibrary := by
  unfold addTable
  split
  · rfl
  split
  · rfl
  split
  · rfl
  next declared _ =>
  have hfold := foldlM_map (addChunk_asLibrary system declared)
  dsimp only [bind, Except.bind]
  rw [hfold _ (table, 0)]
  cases (walkAt _ c.payloadPosition).chunks.foldlM (addChunk { system := system } declared)
      (table, 0) with
  | error e => rfl
  | ok state =>
      dsimp only [Except.map]
      split <;> rfl

theorem load_asLibrary (b : ByteArray) (system : Bool) :
    load b { system := system, asLibrary := true } =
      (load b { system := system }).map asLibrary := by
  have hadd : ∀ (table : Table) (c : Chunk),
      addFileChunk { system := system, asLibrary := true } table.asLibrary c =
        (addFileChunk { system := system } table c).map asLibrary := by
    intro table c
    unfold addFileChunk
    split
    · exact addTable_asLibrary system table c
    · rfl
  have hfold := foldlM_map hadd (walkAt b 0).chunks { isSystem := system }
  have hempty : asLibrary { isSystem := system } = { isSystem := system } := rfl
  rw [hempty] at hfold
  unfold load
  split
  · rfl
  dsimp only [bind, Except.bind]
  rw [hfold]
  cases (walkAt b 0).chunks.foldlM (addFileChunk { system := system })
      ({ isSystem := system } : Table) with
  | error e => rfl
  | ok table =>
      dsimp only [Except.map]
      split <;> rfl

end Table

/-- A file is loaded as a library exactly if it is loaded as an application. -/
theorem Asset.loadAsLibrary_eq (path : String) (b : ByteArray) (system : Bool) :
    loadAsLibrary path b system = (load path b system).map asLibrary := by
  unfold loadAsLibrary load loadWith
  split
  · rfl
  · rw [Table.load_asLibrary]
    cases Table.load b { system := system } <;> rfl

/-! ## Groups -/

/-- A package of a group as a library. -/
def GroupMember.asLibrary (m : GroupMember) : GroupMember :=
  { m with package := m.package.asLibrary }

namespace PackageGroup

/-- The group of an application as that of the first library. -/
def asLibrary (g : PackageGroup) : PackageGroup where
  members := g.members.map .asLibrary
  libraries := .ofLibrary

/-- The group of a single package that names no libraries. -/
theorem ofAssets_singleton {a : Asset} {p : Package} (hpackages : a.table.packages = [p])
    (hlibraries : p.libraries = []) :
    ofAssets [a] = [{
      members := [⟨0, p, []⟩]
      libraries := {
        ownId := if p.isDynamic then ResourceId.libraryPackage else p.id
        appAsLibrary := p.isDynamic && p.id == ResourceId.appPackage } }] := by
  unfold ofAssets packagesFrom packagesFrom
  rw [hpackages]
  cases hdynamic : p.isDynamic with
  | true =>
      simp [Assembly.add, hdynamic, lastId, firstLibraryId, addTo, addMember, start, link,
        hlibraries, name?, LibraryTable.mapName, LibraryTable.buildId?, ResourceId.libraryPackage]
  | false =>
      simp [Assembly.add, hdynamic, addTo, addMember, start, link, hlibraries, name?,
        LibraryTable.mapName, LibraryTable.buildId?]

end PackageGroup

end AppResources
