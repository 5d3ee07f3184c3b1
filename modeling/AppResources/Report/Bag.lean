import AppResources.Bag.Inherit
import AppResources.Report.Value

/-!
# Reports on bags

A bag with the names of its keys and the texts of its values, as a record for
printing.
-/

namespace AppResources

/-- A report on an entry of a bag. -/
structure BagEntryReport where
  /-- The key. -/
  key : ResourceId
  /-- The name of the key. -/
  keyName : Option String
  /-- The text of the value. -/
  text : String
  /-- The bag that defines the value. -/
  style : ResourceId
  deriving DecidableEq

/-- A report on a bag. -/
structure BagReport where
  /-- The id of the bag. -/
  id : ResourceId
  /-- The name of the bag. -/
  name : Option String
  /-- The names of the axes along which the bag varies. -/
  axes : List String
  /-- The entries. -/
  entries : List BagEntryReport
  deriving DecidableEq

namespace BagEntryReport

/-- The report on an entry. -/
def of (r : Resources) (e : BagEntry) : BagEntryReport where
  key := e.key
  keyName := r.nameText? e.key
  text := r.valueText (some e.cookie) e.value
  style := e.style

/-- A report as JSON. -/
def json (e : BagEntryReport) : Json :=
  .object [
    ("key", .string (Text.hexId e.key)),
    ("key_name", .ofText? e.keyName),
    ("value", .string e.text),
    ("style", .string (Text.hexId e.style))]

end BagEntryReport

namespace BagReport

/-- The report on a bag. -/
def of (r : Resources) (id : ResourceId) (b : Bag) : BagReport where
  id := id
  name := r.nameText? id
  axes := b.axes.namesOf
  entries := b.entries.map (.of r)

/-- A report as JSON. -/
def json (b : BagReport) : Json :=
  .object [
    ("resid", .string (Text.hexId b.id)),
    ("name", .ofText? b.name),
    ("changing_configurations", .array (b.axes.map .string)),
    ("entries", .array (b.entries.map BagEntryReport.json))]

end BagReport

end AppResources
