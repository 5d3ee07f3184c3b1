import AppResources.Command.Resolve
import AppResources.Report.Bag

/-!
# The command `bag`

Prints a bag with all it inherits.
-/

namespace AppResources.Command

/-- The line about an entry of a bag; entries that are inherited name the bag they come
from. -/
def bagEntryLine (id : ResourceId) (e : BagEntryReport) : String :=
  "  " ++ e.keyName.getD (Text.hexId e.key) ++ ": " ++ e.text ++
    if e.style = id then "" else " (from " ++ Text.hexId e.style ++ ")"

/-- The lines about a bag. -/
def bagReportLines (b : BagReport) : List String :=
  ("Bag: " ++ b.name.getD "-" ++ " (" ++ Text.hexId b.id ++ ")") ::
    b.entries.map (bagEntryLine b.id)

/-- The lines about the bag with an id. -/
def bagLines (files : FileLookup) (path id : String) (config : Option String) (json : Bool) :
    Except CommandError (List String) := do
  let r ← loadResources files path config
  let id ← CommandError.idOf id
  let bag ← (r.bag id []).1.mapError (.bag id)
  let report := BagReport.of r id bag
  return if json then [report.json.pretty] else bagReportLines report

/-- Prints a bag with all it inherits. -/
def bag (files : FileLookup) (path id : String) (config : Option String) (json : Bool) :
    Outcome :=
  Outcome.ofLines (bagLines files path id config json)

end AppResources.Command
