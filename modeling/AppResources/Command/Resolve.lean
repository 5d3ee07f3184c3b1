import AppResources.Command.Outcome
import AppResources.Report.Value

/-!
# The command `resolve`

Prints the final value of a resource.
-/

namespace AppResources.Command

/-- The resources of the table in a file, under a configuration if one is given. -/
def loadResources (files : FileLookup) (path : String) (config : Option String) :
    Except CommandError Resources := do
  let content ← (files.read path).mapError (.file path)
  let asset ← (Asset.load path content false).mapError (.table path)
  let r := ({} : Resources).setAssets [asset]
  match config with
  | none => return r
  | some text => return r.setConfig (← CommandError.configOf text)

/-- The resource that is asked for, by id or by name. -/
def resourceId (r : Resources) (id name : Option String) : Except CommandError ResourceId :=
  match id, name with
  | some text, _ => CommandError.idOf text
  | none, some name =>
    match r.idOf? name "" "" with
    | some id => .ok id
    | none => .error (.unknownName name)
  | none, none => .error .noResource

/-- The lines about a value. -/
def valueLines (id : ResourceId) (s : Resolved) (v : ValueReport) : List String :=
  [ "Resource: " ++ v.name.getD "-"
  , "Id: " ++ Text.hexId id
  , "Type: " ++ v.kind
  , "Value: " ++ v.text ] ++
    (if s.origin = 0 ∨ s.origin = id then [] else ["Resolved from: " ++ Text.hexId s.origin]) ++
    ["Configuration: " ++ v.config] ++
    (if s.axes.isEmpty then [] else ["Varies with: " ++ ", ".intercalate v.axes])

/-- The lines about the final value of a resource. A value whose chain of references cannot
be followed to the end is shown as it is. -/
def resolveLines (files : FileLookup) (path : String) (id name config : Option String)
    (json : Bool) : Except CommandError (List String) := do
  let r ← loadResources files path config
  let id ← resourceId r id name
  let found ← (r.get id true 0).mapError (.value id)
  let final := match r.resolve found with
    | .ok s => s
    | .error _ => found
  let report := ValueReport.of r id final
  return if json then [report.json.pretty] else valueLines id final report

/-- Prints the final value of a resource. -/
def resolve (files : FileLookup) (path : String) (id name config : Option String)
    (json : Bool) : Outcome :=
  Outcome.ofLines (resolveLines files path id name config json)

end AppResources.Command
