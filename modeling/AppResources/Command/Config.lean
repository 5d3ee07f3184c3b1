import AppResources.Command.Outcome
import AppResources.Config.Difference
import AppResources.Config.Matching
import AppResources.Locale.Tag
import AppResources.Qualifier.Print

/-!
# The command `config`

Prints a configuration in its normal form, and how it stands to a requested one.
-/

namespace AppResources.Command

/-- The lines about how a configuration stands to a requested one. -/
def comparisonLines (config requested : Config) : List String :=
  let names := (config.difference requested).namesOf
  [ "Requested: " ++ requested.text
  , "Matches: " ++ (if config.fits requested then "yes" else "no")
  , "Differs in: " ++ (if names.isEmpty then "-" else ", ".intercalate names) ]

/-- The lines about a configuration. -/
def configLines (config : Config) : List String :=
  ["Configuration: " ++ config.text, "Locale: " ++ config.locale.tag true]

/-- Prints a configuration, and compares it with another one if that is given. -/
def config (qualifiers : String) (against : Option String) : Outcome :=
  match CommandError.configOf qualifiers with
  | .error e => ⟨"", some e.message⟩
  | .ok c =>
    let printed := Outcome.ofLines (.ok (configLines c))
    match against with
    | none => printed
    | some text =>
      match CommandError.configOf text with
      | .error e => { printed with error := some e.message }
      | .ok requested =>
        Outcome.ofLines (.ok (configLines c ++ comparisonLines c requested))

end AppResources.Command
