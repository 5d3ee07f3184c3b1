import AppResources.ResourceId
import AppResources.Value

/-!
# Ids of shared libraries

A shared library gets its package id when it is loaded, so ids that were compiled
into other packages have to be renumbered. Every group of packages has a table from
the package ids of build time to those of run time; the names of the libraries that
a package was compiled against connect the two.

## Main definitions

* `LibraryTable.runtimeId?`: an id with the package byte of run time.
* `LibraryTable.runtimeValue?`: a value whose references hold run-time ids.
-/

namespace AppResources

/-- From package ids of build time to those of run time. -/
structure LibraryTable where
  /-- The id that the package itself got. -/
  ownId : UInt8 := 0
  /-- Whether the package is an application loaded as a library. -/
  appAsLibrary : Bool := false
  /-- The build-time ids of libraries by name, every name once. -/
  names : List (String × UInt8) := []
  /-- Run-time ids by build-time id, the latest first; zero stands for "unknown". -/
  ids : List (UInt8 × UInt8) :=
    [(ResourceId.appPackage, ResourceId.appPackage),
      (ResourceId.frameworkPackage, ResourceId.frameworkPackage)]
  deriving DecidableEq

namespace LibraryTable

/-- Binds a name in a list of bindings, in the place of an older binding of the name. -/
def bindName (name : String) (id : UInt8) : List (String × UInt8) → List (String × UInt8)
  | [] => [(name, id)]
  | other :: rest =>
    if other.1 = name then (name, id) :: rest else other :: bindName name id rest

/-- Remembers the build-time id of a library. -/
def addLibrary (t : LibraryTable) (name : String) (buildId : UInt8) : LibraryTable :=
  { t with names := bindName name buildId t.names }

/-- Says which run-time id stands for a build-time id. -/
def mapId (t : LibraryTable) (buildId runtimeId : UInt8) : LibraryTable :=
  { t with ids := (buildId, runtimeId) :: t.ids }

/-- The build-time id of a library. -/
def buildId? (t : LibraryTable) (name : String) : Option UInt8 :=
  t.names.lookup name

/-- Says which run-time id a library got; libraries that were never named are left out. -/
def mapName (t : LibraryTable) (name : String) (runtimeId : UInt8) : LibraryTable :=
  match t.buildId? name with
  | some buildId => t.mapId buildId runtimeId
  | none => t

/-- The run-time package id for a build-time package id. An application keeps its id unless
it is a library itself; zero, and an application that is a library, mean the package
itself. -/
def runtimePackage? (t : LibraryTable) (package : UInt8) : Option UInt8 :=
  if package = ResourceId.appPackage ∧ t.appAsLibrary = false then some package
  else if package = 0 ∨ package = ResourceId.appPackage then some t.ownId
  else (t.ids.lookup package).filter (· ≠ 0)

/-- An id with the package byte of run time. -/
def runtimeId? (t : LibraryTable) (id : ResourceId) : Option ResourceId :=
  (t.runtimePackage? (ResourceId.package id)).map (ResourceId.withPackage id)

/-- The kind of values of a kind once their ids are those of run time; `none` for values
that hold no id to renumber. -/
def runtimeKind? (t : LibraryTable) : ValueKind → Option ValueKind
  | .dynamicReference => some .reference
  | .dynamicAttribute => some .attribute
  | .reference => if t.appAsLibrary then some .reference else none
  | .attribute => if t.appAsLibrary then some .attribute else none
  | _ => none

/-- A value whose references hold run-time ids. References to nothing stay what they are. -/
def runtimeValue? (t : LibraryTable) (v : Value) : Option Value :=
  match t.runtimeKind? v.kind with
  | none => some v
  | some kind =>
    if v.data = 0 then some ⟨kind, 0⟩
    else (t.runtimeId? v.data).map fun id => ⟨kind, id⟩

end LibraryTable

end AppResources
