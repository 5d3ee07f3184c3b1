import AppResources.Json
import AppResources.Qualifier.Print
import AppResources.Table.Package

/-!
# Reports on packages

What a package holds, as a record for printing: its types with the number of entries
and the configurations of their variants.
-/

namespace AppResources

/-- A report on a type. -/
structure TypeReport where
  /-- The id of the type. -/
  id : UInt8
  /-- The name of the type. -/
  name : Option String
  /-- The number of entries. -/
  entryCount : Nat
  /-- The configurations of the variants. -/
  configurations : List String
  deriving DecidableEq

/-- A report on a package. -/
structure PackageReport where
  /-- The id. -/
  id : UInt8
  /-- The name. -/
  name : String
  /-- Whether the package is a shared library. -/
  isDynamic : Bool
  /-- Whether the package is an overlay. -/
  isOverlay : Bool
  /-- The libraries, each with its id and name. -/
  libraries : List String
  /-- The types. -/
  types : List TypeReport
  deriving DecidableEq

namespace TypeReport

/-- The report on the type in a slot. -/
def of (p : Package) (slot : Nat) (s : TypeSpec) : TypeReport where
  id := s.id
  name := p.typeName? slot
  entryCount := s.axes.size
  configurations := s.variants.map (·.config.text)

/-- A report as JSON. -/
def json (r : TypeReport) : Json :=
  .object [
    ("id", .number r.id.toNat),
    ("name", .ofText? r.name),
    ("entry_count", .number r.entryCount),
    ("configurations", .array (r.configurations.map .string))]

end TypeReport

namespace PackageReport

/-- The report on a package. -/
def of (p : Package) : PackageReport where
  id := p.id
  name := p.name
  isDynamic := p.isDynamic
  isOverlay := p.isOverlay
  libraries := p.libraries.map fun l => Text.hexByte l.buildId ++ " " ++ l.name
  types := p.specs.map fun s => .of p s.1 s.2

/-- A report as JSON. -/
def json (r : PackageReport) : Json :=
  .object [
    ("id", .number r.id.toNat),
    ("name", .string r.name),
    ("dynamic", .bool r.isDynamic),
    ("overlay", .bool r.isOverlay),
    ("libraries", .array (r.libraries.map .string)),
    ("types", .array (r.types.map TypeReport.json))]

end PackageReport

end AppResources
