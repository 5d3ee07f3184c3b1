import AppResources.Asset
import AppResources.Config.Matching
import AppResources.LibraryTable

/-!
# Groups of packages

The packages that share a run-time id form a group, a base package first and its
overlays behind it. Shared libraries get consecutive ids from `firstLibraryId` on,
in the order in which they come; all other packages keep their id.

## Main definitions

* `PackageGroup.ofAssets`: the groups of the packages of a list of assets.
-/

namespace AppResources

/-- A package of a group. -/
structure GroupMember where
  /-- The position of the asset that the package is part of. -/
  cookie : Nat
  /-- The package. -/
  package : Package
  /-- By slot the variants that fit the current configuration. -/
  fitting : List (List Variant)

/-- The packages that share a run-time id. -/
structure PackageGroup where
  /-- The members, in the order in which they came. -/
  members : List GroupMember
  /-- The ids of the libraries that the packages refer to, and their own one. -/
  libraries : LibraryTable

namespace GroupMember

/-- By slot the variants of a package that fit a configuration. -/
def fittingOf (p : Package) (config : Config) : List (List Variant) :=
  p.slots.map fun
    | some s => s.variants.filter (·.config.fits config)
    | none => []

/-- The member with the variants that fit a configuration. -/
def refit (config : Config) (m : GroupMember) : GroupMember :=
  { m with fitting := fittingOf m.package config }

end GroupMember

namespace PackageGroup

/-- The run-time id of a group. -/
def id (g : PackageGroup) : UInt8 := g.libraries.ownId

/-- The name of the first package of a group. -/
def name? (g : PackageGroup) : Option String :=
  g.members.head?.map (·.package.name)

/-- Adds a package to a group; the libraries that the package names become known. -/
def addMember (cookie : Nat) (p : Package) (g : PackageGroup) : PackageGroup where
  members := g.members ++ [⟨cookie, p, []⟩]
  libraries := p.libraries.foldl (fun t l => t.addLibrary l.name l.buildId) g.libraries

/-- A group without members, for packages like the given one. -/
def start (id : UInt8) (p : Package) : PackageGroup where
  members := []
  libraries := {
    ownId := id
    appAsLibrary := p.isDynamic && p.id == ResourceId.appPackage }

/-- Adds a package to the group with an id, which is started if there is none. -/
def addTo (id : UInt8) (cookie : Nat) (p : Package) : List PackageGroup → List PackageGroup
  | [] => [(start id p).addMember cookie p]
  | g :: rest =>
    if g.id = id then g.addMember cookie p :: rest
    else g :: addTo id cookie p rest

/-- The id of the first shared library. -/
def firstLibraryId : Nat := 2

/-- The greatest package id. -/
def lastId : Nat := 255

/-- Groups under construction, and the id of the next shared library. -/
structure Assembly where
  /-- The groups so far. -/
  groups : List PackageGroup := []
  /-- The id of the next shared library. -/
  nextLibraryId : Nat := firstLibraryId

/-- Adds a package. A shared library is left out when no id is left. -/
def Assembly.add (a : Assembly) (cookie : Nat) (p : Package) : Assembly :=
  if p.isDynamic then
    if lastId < a.nextLibraryId then a
    else
      { groups := addTo (UInt8.ofNat a.nextLibraryId) cookie p a.groups
        nextLibraryId := a.nextLibraryId + 1 }
  else { a with groups := addTo p.id cookie p a.groups }

/-- The packages of a list of assets, each with the position of its asset. -/
def packagesFrom : Nat → List Asset → List (Nat × Package)
  | _, [] => []
  | cookie, a :: rest => a.table.packages.map (cookie, ·) ++ packagesFrom (cookie + 1) rest

/-- Makes every group known by name to a group that refers to it. -/
def link (all : List PackageGroup) (g : PackageGroup) : PackageGroup :=
  { g with
    libraries := all.foldl
      (fun t other =>
        match other.name? with
        | some name => t.mapName name other.id
        | none => t)
      g.libraries }

/-- The groups of the packages of a list of assets. -/
def ofAssets (assets : List Asset) : List PackageGroup :=
  let groups :=
    ((packagesFrom 0 assets).foldl (fun (a : Assembly) e => a.add e.1 e.2) {}).groups
  groups.map (link groups)

/-- The group with the variants that fit a configuration. -/
def refit (config : Config) (g : PackageGroup) : PackageGroup :=
  { g with members := g.members.map (.refit config) }

end PackageGroup

end AppResources
