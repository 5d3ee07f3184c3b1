import AppResources.Resources

/-!
# The index of package ids

The groups of packages are found by their run-time id through a table of bytes, which holds
for every id the position of its group, or `GroupIndex.unused` where there is none. The table
is filled while the packages are collected: the first package with an id opens its group, and
later ones are added where the table points.

`PackageGroup.ofAssets` and `Resources.group?` say the same without a table.

## Main definitions

* `GroupIndex.ofAssets`: the groups of the packages of a list of assets, with their table.
-/

namespace AppResources

/-- A package of an asset. -/
structure AssetPackage where
  /-- The asset. -/
  asset : Asset
  /-- The position of the package in its table. -/
  index : Nat
  /-- The package that stands there. -/
  package : Package

/-- The packages that share a run-time id. -/
structure IndexedGroup where
  /-- The packages, in the order in which they came. -/
  packages : List AssetPackage
  /-- The positions of their assets. -/
  cookies : List Nat
  /-- The ids of the libraries that the packages refer to, and their own one. -/
  libraries : LibraryTable

namespace IndexedGroup

/-- The run-time id of a group. -/
def id (g : IndexedGroup) : UInt8 := g.libraries.ownId

/-- The name of the first package of a group. -/
def name? (g : IndexedGroup) : Option String :=
  g.packages.head?.map (·.package.name)

/-- A group without packages, for packages like the given one. -/
def start (id : UInt8) (p : Package) : IndexedGroup where
  packages := []
  cookies := []
  libraries := (PackageGroup.start id p).libraries

/-- Adds a package to a group; the libraries that the package names become known. -/
def add (cookie : Nat) (p : AssetPackage) (g : IndexedGroup) : IndexedGroup where
  packages := g.packages ++ [p]
  cookies := g.cookies ++ [cookie]
  libraries := p.package.libraries.foldl (fun t l => t.addLibrary l.name l.buildId) g.libraries

/-- The names of groups with their ids. -/
def assignedNames (groups : List IndexedGroup) : List (String × UInt8) :=
  groups.filterMap fun g => g.name?.map (·, g.id)

/-- Makes the groups with some names known to a group that refers to them. -/
def link (names : List (String × UInt8)) (g : IndexedGroup) : IndexedGroup :=
  { g with libraries := names.foldl (fun t n => t.mapName n.1 n.2) g.libraries }

/-- The group as one list of packages and assets. -/
def toGroup (g : IndexedGroup) : PackageGroup where
  members := List.zipWith (fun cookie p => ⟨cookie, p.package, []⟩) g.cookies g.packages
  libraries := g.libraries

end IndexedGroup

/-- Groups with a table of their positions, and the id of the next shared library. -/
structure GroupIndex where
  /-- The groups. -/
  groups : List IndexedGroup := []
  /-- The position of the group of every id. -/
  positions : Vector UInt8 256 := Vector.replicate 256 0xff
  /-- The id of the next shared library. -/
  nextLibraryId : Nat := PackageGroup.firstLibraryId

namespace GroupIndex

/-- What stands for an id without a group. -/
def unused : UInt8 := 0xff

/-- The position of the group of an id. -/
def position (x : GroupIndex) (id : UInt8) : UInt8 :=
  x.positions.get ⟨id.toNat, id.toNat_lt⟩

/-- The group of an id. -/
def group? (x : GroupIndex) (id : UInt8) : Option IndexedGroup :=
  if x.position id = unused then none else x.groups[(x.position id).toNat]?

/-- Adds a package under an id. -/
def place (id : UInt8) (cookie : Nat) (p : AssetPackage) (x : GroupIndex) : GroupIndex :=
  if x.position id = unused then
    { x with
      positions := x.positions.set id.toNat (UInt8.ofNat x.groups.length) id.toNat_lt
      groups := x.groups ++ [(IndexedGroup.start id p.package).add cookie p] }
  else { x with groups := x.groups.modify (x.position id).toNat (.add cookie p) }

/-- Adds a package. A shared library is left out when no id is left. -/
def add (cookie : Nat) (p : AssetPackage) (x : GroupIndex) : GroupIndex :=
  if p.package.isDynamic then
    if PackageGroup.lastId < x.nextLibraryId then x
    else
      { x.place (UInt8.ofNat x.nextLibraryId) cookie p with
        nextLibraryId := x.nextLibraryId + 1 }
  else x.place p.package.id cookie p

/-- Adds the packages of an asset. -/
def addAsset (x : GroupIndex) (cookie : Nat) (a : Asset) : GroupIndex :=
  a.table.packages.zipIdx.foldl (fun x p => x.add cookie ⟨a, p.2, p.1⟩) x

/-- The groups of the packages of a list of assets, with their table. -/
def ofAssets (assets : List Asset) : GroupIndex :=
  let x := assets.zipIdx.foldl (fun (x : GroupIndex) a => x.addAsset a.2 a.1) {}
  { x with groups := x.groups.map (.link (IndexedGroup.assignedNames x.groups)) }

end GroupIndex

end AppResources
