import AppResources.Json
import AppResources.Qualifier.Print
import AppResources.Resources.Name
import AppResources.Resources.Reference
import AppResources.Value.Text

/-!
# Reports on values

A value with its text, its name, and what it depends on, as a record for printing.
-/

namespace AppResources

/-- A report on the value of a resource. -/
structure ValueReport where
  /-- The id of the resource. -/
  id : ResourceId
  /-- The name of the resource. -/
  name : Option String
  /-- The kind of the value. -/
  kind : String
  /-- The word of the value. -/
  data : UInt32
  /-- The text of the value. -/
  text : String
  /-- The asset that the value was read from. -/
  cookie : Option Nat
  /-- The configuration of the variant that the value was read from. -/
  config : String
  /-- The names of the axes along which the value varies. -/
  axes : List String
  deriving DecidableEq

/-- The text of a value from an asset. -/
def Resources.valueText (r : Resources) (cookie : Option Nat) (v : Value) : String :=
  v.textWith (r.stringOf? cookie)

namespace ValueReport

/-- The report on a value of a resource. -/
def of (r : Resources) (id : ResourceId) (s : Resolved) : ValueReport where
  id := id
  name := r.nameText? id
  kind := s.value.kind.name
  data := s.value.data
  text := r.valueText s.cookie s.value
  cookie := s.cookie
  config := s.config.text
  axes := s.axes.namesOf

/-- A report as JSON. -/
def json (v : ValueReport) : Json :=
  .object [
    ("resid", .string (Text.hexId v.id)),
    ("name", .ofText? v.name),
    ("data_type", .string v.kind),
    ("data", .number v.data.toNat),
    ("formatted", .string v.text),
    ("cookie", match v.cookie with
      | some cookie => .number cookie
      | none => .null),
    ("config", .string v.config),
    ("changing_configurations", .array (v.axes.map .string))]

end ValueReport

end AppResources
