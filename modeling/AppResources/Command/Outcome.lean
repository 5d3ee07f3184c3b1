import AppResources.Asset
import AppResources.Command.FileTree
import AppResources.Qualifier.Parse
import AppResources.Resources
import AppResources.ResourceId.Text
import AppResources.Text.Quoted

/-!
# Outcomes of commands

A command prints some text and may end with an error. Errors say what was attempted
and then, after colons, why it failed.

## Main definitions

* `CommandError`, `CommandError.message`: the errors and their wording.
* `CommandError.configOf`, `CommandError.idOf`: reading arguments.
-/

namespace AppResources

/-- Why a command fails. -/
inductive CommandError where
  /-- A file cannot be read. -/
  | file (path : String) (f : FileFault)
  /-- A file is no table. -/
  | table (path : String) (e : AssetError)
  /-- An argument is no configuration. -/
  | config (text : String) (e : QualifierError)
  /-- An argument is no number. -/
  | unreadableId (text : String)
  /-- An argument is a number that names no resource. -/
  | invalidId (id : ResourceId)
  /-- There is no resource with a name. -/
  | unknownName (name : String)
  /-- Neither an id nor a name is given. -/
  | noResource
  /-- There is no value. -/
  | value (id : ResourceId) (e : LookupError)
  /-- There is no bag. -/
  | bag (id : ResourceId) (e : LookupError)

namespace CommandError

/-- What was attempted, and the messages about why it failed. -/
def chain : CommandError → List String
  | .file path f => ["can't open file: " ++ Text.quoted path, f.message]
  | .table path e =>
    ("got error while parsing resource table: " ++ Text.quoted path) :: e.chain
  | .config text e => ["invalid configuration: " ++ Text.quoted text, e.message]
  | .unreadableId text => ["can't parse resource id: " ++ Text.quoted text]
  | .invalidId id => [Text.hexId id ++ " is not a valid resource id"]
  | .unknownName name => ["no resource named " ++ Text.quoted name]
  | .noResource => ["either --id or --name is required"]
  | .value id e => ["can't find resource " ++ Text.hexId id, e.message]
  | .bag id e => ["can't resolve bag " ++ Text.hexId id, e.message]

/-- The message about an error. -/
def message (e : CommandError) : String :=
  ": ".intercalate e.chain

/-- The configuration that an argument stands for. -/
def configOf (text : String) : Except CommandError Config :=
  (Config.ofVersionedQualifiers text).mapError (.config text)

/-- The id that an argument stands for. -/
def idOf (text : String) : Except CommandError ResourceId :=
  match ResourceId.ofText? text with
  | none => .error (.unreadableId (String.ofList (Text.trim text.toList)))
  | some id => if ResourceId.isValid id then .ok id else .error (.invalidId id)

end CommandError

/-- What a command printed, and how it ended. -/
structure Outcome where
  /-- The printed text. -/
  output : String
  /-- The message about the error that ended the command. -/
  error : Option String := none

namespace Outcome

/-- The outcome of a command that prints lines once nothing can fail any more. -/
def ofLines : Except CommandError (List String) → Outcome
  | .ok lines => ⟨String.join (lines.map (· ++ "\n")), none⟩
  | .error e => ⟨"", some e.message⟩

end Outcome

end AppResources
