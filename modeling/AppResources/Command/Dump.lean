import AppResources.Command.Outcome
import AppResources.Report.Package

/-!
# The command `dump`

Prints the packages, types and configurations of tables.
-/

namespace AppResources.Command

/-- The lines about a type. -/
def typeLines (t : TypeReport) : List String :=
  ("  Type " ++ Text.hexByte t.id ++ " " ++ t.name.getD "-" ++ ": " ++
    Text.decimal t.entryCount ++ " entries") ::
    t.configurations.map ("    " ++ ·)

/-- The lines about a package. -/
def packageLines (p : PackageReport) : List String :=
  ["Package: " ++ p.name ++ " (" ++ Text.hexByte p.id ++ ")"] ++
    (if p.isDynamic then ["  shared library"] else []) ++
    (if p.isOverlay then ["  overlay"] else []) ++
    p.libraries.map ("  Library: " ++ ·) ++
    p.types.flatMap typeLines

/-- The lines about the table in a file. -/
def tableLines (path : String) (content : ByteArray) (json : Bool) :
    Except CommandError (List String) :=
  match Asset.load path content false with
  | .error e => .error (.table path e)
  | .ok asset =>
    let reports := asset.table.packages.map PackageReport.of
    if json then .ok [(Json.array (reports.map PackageReport.json)).pretty]
    else .ok (("Table: " ++ path) :: reports.flatMap packageLines)

/-- Prints the tables of files in order, with an empty line between two of them, up to the
first that cannot be loaded. -/
def dumpFiles (json : Bool) : List (String × ByteArray) → Outcome
  | [] => ⟨"", none⟩
  | (path, content) :: rest =>
    let first := Outcome.ofLines (tableLines path content json)
    if first.error.isSome || rest.isEmpty then first
    else
      let others := dumpFiles json rest
      { others with output := first.output ++ "\n" ++ others.output }

/-- Prints the tables at paths and below directories. -/
def dump (files : FileLookup) (paths : List String) (json : Bool) : Outcome :=
  dumpFiles json (paths.flatMap (files.search "arsc"))

end AppResources.Command
