import AppResources.Config.Difference
import AppResources.Resources.Group

/-!
# Resources of a device

The resources of a device are those of an ordered list of assets under a
configuration. The variants that fit the configuration are found once, when assets
or configuration change along some axis.

## Main definitions

* `Resources.setAssets`, `Resources.setConfig`: the two ways to change them.
-/

namespace AppResources

/-- The resources of a list of assets under a configuration. -/
structure Resources where
  /-- The assets; their positions are the cookies that answers carry. -/
  assets : List Asset := []
  /-- The packages of the assets by run-time id. -/
  groups : List PackageGroup := []
  /-- The configuration of the device. -/
  config : Config := .default

/-- Why a lookup found nothing. -/
inductive LookupError where
  /-- The id names no resource of any package. -/
  | invalidId (id : ResourceId)
  /-- There is no such resource. -/
  | notFound (id : ResourceId)
  /-- A chain of references or attributes is too long. -/
  | tooManySteps (id : ResourceId)
  /-- The id refers to an unknown library. -/
  | unknownLibrary (id : ResourceId)
  deriving DecidableEq, Repr

namespace LookupError

/-- The message about an error. -/
def message : LookupError → String
  | .invalidId id => "invalid resource id " ++ Text.hexId id
  | .notFound id => "resource " ++ Text.hexId id ++ " not found"
  | .tooManySteps id => "too many indirections while resolving " ++ Text.hexId id
  | .unknownLibrary id => "can't translate dynamic reference " ++ Text.hexId id

end LookupError

namespace Resources

/-- Finds the fitting variants of all packages again. -/
def refit (r : Resources) : Resources :=
  { r with groups := r.groups.map (.refit r.config) }

/-- The resources with other assets. -/
def setAssets (r : Resources) (assets : List Asset) : Resources :=
  refit { r with assets := assets, groups := PackageGroup.ofAssets assets }

/-- The resources under another configuration. -/
def setConfig (r : Resources) (config : Config) : Resources :=
  let changed := { r with config := config }
  if (r.config.difference config).isEmpty then changed else changed.refit

/-- The group with a run-time id. -/
def group? (r : Resources) (id : UInt8) : Option PackageGroup :=
  r.groups.find? (·.id == id)

/-- The table of the group with a run-time id. -/
def librariesOfPackage? (r : Resources) (id : UInt8) : Option LibraryTable :=
  (r.group? id).map (·.libraries)

/-- The table of the first group that a package of an asset is part of. -/
def librariesOfAsset? (r : Resources) (cookie : Nat) : Option LibraryTable :=
  (r.groups.find? fun g => g.members.any (·.cookie == cookie)).map (·.libraries)

/-- The run-time id of the group whose first package has a name. -/
def packageId? (r : Resources) (name : String) : Option UInt8 :=
  (r.groups.find? (·.name? == some name)).map (·.id)

/-- The packages of all groups, with or without those of the system. -/
def packages (r : Resources) (withoutSystem : Bool) : List Package :=
  (r.groups.flatMap fun g => g.members.map (·.package)).filter fun p =>
    !(withoutSystem && p.isSystem)

/-- The configurations of the variants of all packages without repetitions. -/
def configurations (r : Resources) (withoutSystem withoutMipmaps : Bool) : List Config :=
  ((r.packages withoutSystem).flatMap fun p => p.configurations withoutMipmaps).foldl addNew []

/-- The tags of the locales that variants are made for, sorted. -/
def locales (r : Resources) (withoutSystem canonical : Bool) : List String :=
  Text.sortedSet ((r.packages withoutSystem).flatMap fun p => p.locales canonical)

/-- The string of the table of an asset at an index. -/
def stringOf? (r : Resources) (cookie : Option Nat) (index : Nat) : Option String := do
  let asset ← r.assets[← cookie]?
  (← asset.table.strings).string? index

end Resources

end AppResources
