import AppResources.Locale.Tag
import AppResources.Qualifier.Word
import AppResources.Text.DecimalDigit
import AppResources.Text.Number
import AppResources.Text.Quoted

/-!
# Reading qualifiers

A configuration is written as qualifiers with dashes between them, in any order
and any case. Each qualifier is a word, a density, a screen size, a number with
its mark, a locale tag behind `b+`, or a language that may be followed by a
region. The first rule that fits decides.

## Main definitions

* `Config.ofQualifiers`: the configuration that qualifiers describe.
* `Config.ofVersionedQualifiers`: the same, with the least platform version that
  knows the qualifiers.
-/

namespace AppResources

/-- Why a text describes no configuration. -/
inductive QualifierError where
  /-- No rule fits the qualifier. -/
  | unknown (qualifier : String)
  /-- The number in the qualifier does not fit its field. -/
  | outOfRange (qualifier : String)
  deriving DecidableEq, Repr

namespace QualifierError

/-- The message about an error. -/
def message : QualifierError → String
  | .unknown q => "unknown configuration qualifier " ++ Text.quoted q
  | .outOfRange q => "qualifier " ++ Text.quoted q ++ " is out of range"

end QualifierError

namespace Qualifier

/-- The least number that is too large for a field. -/
def numberLimit : Nat := 65536

/-- The number that digits stand for, if it fits a field of 16 bits. -/
def readNumber (token digits : List Char) : Except QualifierError UInt16 :=
  match (Text.readDecimal? digits).filter (· < numberLimit) with
  | some n => .ok (UInt16.ofNat n)
  | none => .error (.outOfRange (String.ofList token))

/-- Splits a token behind its leading digits; there has to be one at least. -/
def leadingDigits? (token : List Char) : Option (List Char × List Char) :=
  match token.span Text.isDecimalDigit with
  | ([], _) => none
  | (digits, rest) => some (digits, rest)

/-- The digits of a density given as a number. -/
def densityDigits? (token : List Char) : Option (List Char) :=
  match leadingDigits? token with
  | some (digits, rest) => if rest = "dpi".toList then some digits else none
  | none => none

/-- The digits of the two sides of a screen size. -/
def sizeDigits? (token : List Char) : Option (List Char × List Char) :=
  match leadingDigits? token with
  | some (first, 'x' :: rest) =>
    match leadingDigits? rest with
    | some (second, []) => some (first, second)
    | _ => none
  | _ => none

/-- A number with its mark. -/
structure Numbered where
  /-- The mark. -/
  qualifier : NumberQualifier
  /-- The digits. -/
  digits : List Char
  /-- Whether `dp` follows. -/
  inDp : Bool

/-- Recognises a number with a mark in front of it and an optional `dp` behind it. -/
def numbered? (token : List Char) : Option Numbered :=
  NumberQualifier.all.findSome? fun q =>
    match q.mark.toList.isPrefixOf? token with
    | none => none
    | some rest =>
      match leadingDigits? rest with
      | some (digits, []) => some ⟨q, digits, false⟩
      | some (digits, ['d', 'p']) => some ⟨q, digits, true⟩
      | _ => none

/-- Sets the field of a number with its mark. A network code of zeros only is a code of
its own. -/
def applyNumbered (c : Config) (token : List Char) (n : Numbered) :
    Except QualifierError Config :=
  if n.inDp ≠ n.qualifier.inDp then .error (.unknown (String.ofList token))
  else if n.qualifier = .mnc ∧ n.digits.all (· == '0') = true then
    .ok (n.qualifier.set zeroNetwork c)
  else
    match readNumber token n.digits with
    | .ok value => .ok (n.qualifier.set value c)
    | .error e => .error e

/-- The locale that a tag with plus signs names; its script is not filled in. -/
def taggedLocale (tag : List Char) : Locale :=
  let dashed := tag.map fun c => if c = '+' then '-' else c
  let l := Locale.ofTag (String.ofList dashed)
  if l.scriptComputed then { l with script := Script.none, scriptComputed := false } else l

/-- Whether a token has the shape of a language: two or three small letters. -/
def isLanguage (token : List Char) : Bool :=
  (token.length == 2 || token.length == 3) && token.all Char.isLower

/-- The code of a region token: `r` and two small letters or three digits. -/
def regionCode? : List Char → Option (List Char)
  | 'r' :: code =>
    if (code.length == 2 && code.all Char.isLower) || (code.length == 3 && code.all Char.isDigit)
    then some code
    else none
  | _ => none

/-- What a token means for the configuration read so far. -/
inductive Meaning where
  /-- It changes the configuration. -/
  | set (c : Config)
  /-- It is a language, and a region may follow. -/
  | language (c : Config)
  /-- It means nothing. -/
  | refused (e : QualifierError)

/-- What a token means that changes the configuration or is refused. -/
def Meaning.ofResult : Except QualifierError Config → Meaning
  | .ok c => .set c
  | .error e => .refused e

/-- Sets the screen size that two numbers give, the larger one first. -/
def applySize (c : Config) (token : List Char) (digits : List Char × List Char) :
    Except QualifierError Config := do
  let a ← readNumber token digits.1
  let b ← readNumber token digits.2
  return { c with screenWidth := max a b, screenHeight := min a b }

/-- Decides what a token means. -/
def meaning (c : Config) (token : List Char) : Meaning :=
  match QualifierWord.find? token with
  | some w => .set (w.field.set w.value c)
  | none =>
    match densityNames.find? fun d => d.1.toList == token with
    | some d => .set { c with density := d.2 }
    | none =>
      match densityDigits? token with
      | some digits =>
        .ofResult ((readNumber token digits).map fun d => { c with density := d })
      | none =>
        match sizeDigits? token with
        | some digits => .ofResult (applySize c token digits)
        | none =>
          match numbered? token with
          | some n => .ofResult (applyNumbered c token n)
          | none =>
            match token with
            | 'b' :: '+' :: tag => .set { c with locale := taggedLocale tag }
            | _ =>
              if !c.locale.language.isSet && isLanguage token then
                .language { c with locale.language := .ofLanguage (Text.asciiBytes token) }
              else .refused (.unknown (String.ofList token))

/-- Reads the tokens that follow a configuration read so far. -/
def parseTokens (c : Config) : List (List Char) → Except QualifierError Config
  | [] => .ok c
  | [token] =>
    match meaning c token with
    | .set c' | .language c' => .ok c'
    | .refused e => .error e
  | token :: next :: rest =>
    match meaning c token with
    | .refused e => .error e
    | .set c' => parseTokens c' (next :: rest)
    | .language c' =>
      match regionCode? next with
      | some code =>
        parseTokens { c' with locale.region := .ofRegion (Text.asciiBytes code) } rest
      | none => parseTokens c' (next :: rest)

end Qualifier

namespace Config

/-- The configuration that qualifiers describe. -/
def ofQualifiers (s : String) : Except QualifierError Config :=
  if s = "" ∨ s = "default" then .ok default
  else Qualifier.parseTokens default ((s.toList.map Char.toLower).splitOn '-')

/-- The least platform version that knows the qualifiers of a configuration. -/
def leastVersion (c : Config) : UInt16 :=
  let has (f : ConfigField) : Bool := f.get c != 0
  if has .gamut || has .dynamicRange || ConfigField.deviceKind.get c == 7 then 26
  else if has .roundness then 23
  else if c.density = anyDensity then 21
  else if c.smallestWidthDp ≠ 0 ∨ c.widthDp ≠ 0 ∨ c.heightDp ≠ 0 then 13
  else if has .deviceKind || has .night then 8
  else if has .sizeClass || has .aspect || c.density != 0 then 4
  else 0

/-- Raises the platform version to the least one that knows the qualifiers. -/
def withLeastVersion (c : Config) : Config :=
  if c.sdkVersion < c.leastVersion then { c with sdkVersion := c.leastVersion } else c

/-- The configuration that qualifiers describe, at the least platform version. -/
def ofVersionedQualifiers (s : String) : Except QualifierError Config :=
  (ofQualifiers s).map withLeastVersion

end Config

end AppResources
