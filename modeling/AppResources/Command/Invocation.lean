import AppResources.Command.Bag
import AppResources.Command.Config
import AppResources.Command.Dump

/-!
# Invocations

A command with its arguments, as read from a command line.

## Main definitions

* `Invocation.parse`: the invocation on a command line.
* `Invocation.run`: what it prints.
-/

namespace AppResources

/-- A command with its arguments. -/
inductive Invocation where
  | dump (paths : List String) (json : Bool)
  | resolve (path : String) (id name config : Option String) (json : Bool)
  | bag (path id : String) (config : Option String) (json : Bool)
  | config (qualifiers : String) (against : Option String)

namespace Invocation

/-- Arguments by their role. -/
structure Arguments where
  /-- The arguments that belong to no option. -/
  positional : List String := []
  /-- The options with their values. -/
  options : List (String × String) := []
  /-- Whether JSON is asked for. -/
  json : Bool := false

/-- The options that take a value, each with the name it is known by. -/
def optionNames : List (String × String) :=
  [("--id", "id"), ("--name", "name"), ("--config", "config"), ("-c", "config"),
    ("--against", "against")]

/-- Sorts arguments by their role. -/
def sortArguments : List String → Except String Arguments
  | [] => .ok {}
  | "--json" :: rest => (sortArguments rest).map fun a => { a with json := true }
  | [arg] =>
    if (optionNames.lookup arg).isSome then .error ("a value is required for " ++ arg)
    else if arg.startsWith "-" then .error ("unexpected argument " ++ arg)
    else .ok { positional := [arg] }
  | arg :: value :: rest =>
    match optionNames.lookup arg with
    | some name =>
      (sortArguments rest).map fun a => { a with options := (name, value) :: a.options }
    | none =>
      if arg.startsWith "-" then .error ("unexpected argument " ++ arg)
      else
        (sortArguments (value :: rest)).map fun a =>
          { a with positional := arg :: a.positional }

/-- What a command line must look like. -/
def usage : String :=
  "usage: dump PATHS [--json]\n" ++
  "       resolve PATH (--id ID | --name NAME) [--config QUALIFIERS] [--json]\n" ++
  "       bag PATH --id ID [--config QUALIFIERS] [--json]\n" ++
  "       config QUALIFIERS [--against QUALIFIERS]"

/-- The invocation of a command with arguments. -/
def ofArguments (command : String) (a : Arguments) : Except String Invocation :=
  match command, a.positional, a.options.lookup "id" with
  | "dump", path :: paths, _ => .ok (.dump (path :: paths) a.json)
  | "resolve", [path], id =>
    .ok (.resolve path id (a.options.lookup "name") (a.options.lookup "config") a.json)
  | "bag", [path], some id => .ok (.bag path id (a.options.lookup "config") a.json)
  | "config", [qualifiers], _ => .ok (.config qualifiers (a.options.lookup "against"))
  | _, _, _ => .error usage

/-- The invocation on a command line. -/
def parse : List String → Except String Invocation
  | [] => .error usage
  | command :: rest => do ofArguments command (← sortArguments rest)

/-- The paths that an invocation looks at. -/
def paths : Invocation → List String
  | .dump paths _ => paths
  | .resolve path .. => [path]
  | .bag path .. => [path]
  | .config .. => []

/-- What an invocation prints. -/
def run (files : FileLookup) : Invocation → Outcome
  | .dump paths json => Command.dump files paths json
  | .resolve path id name device json => Command.resolve files path id name device json
  | .bag path id device json => Command.bag files path id device json
  | .config qualifiers against => Command.config qualifiers against

end Invocation

end AppResources
