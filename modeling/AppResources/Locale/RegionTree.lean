import AppResources.Locale.Script
import AppResources.Text.Utf8

/-!
# The tree of regions

The regions of a language form a tree. Its root is the language without region;
most regions hang directly below it, and some below a region that covers them, as
British English below world English. For a request in some region, a resource for
a nearer region is better.

## Main definitions

* `RegionTree.path`: a region and all regions that cover it, up to the root.
* `RegionTree.compareFor`: which of two regions serves a request better.
-/

namespace AppResources

/-- A region that covers others, for one language. -/
structure RegionBranch where
  /-- The language. -/
  language : String
  /-- The covering region. -/
  parent : String
  /-- The regions directly below it. -/
  children : List String

namespace RegionTree

/-- The covering regions of the languages written in a script. -/
def branches (script : List Char) : List RegionBranch :=
  if script = "Arab".toList then
    [
      ⟨"ar", "015", [
        "AE", "DZ", "EH", "LY", "MA", "TN"]⟩]
  else if script = "Hant".toList then
    [
      ⟨"zh", "HK", [
        "MO"]⟩]
  else if script = "Latn".toList then
    [
      ⟨"en", "001", [
        "150", "AG", "AI", "AU", "BB", "BM", "BS", "BW", "BZ", "CA", "CY", "GB", "GH", "GI", "HK",
        "IE", "IL", "IN", "JM", "KE", "MT", "MY", "NG", "NZ", "PK", "SG", "ZA", "ZM"]⟩,
      ⟨"en", "150", [
        "AT", "BE", "CH", "DE", "DK", "FI", "NL", "SE"]⟩,
      ⟨"es", "419", [
        "AR", "BO", "BR", "CL", "CO", "CR", "CU", "DO", "EC", "GT", "HN", "MX", "NI", "PA", "PE",
        "PR", "PY", "SV", "US", "UY", "VE"]⟩,
      ⟨"pt", "PT", [
        "AO", "CH", "CV", "GQ", "GW", "LU", "MO", "MZ", "ST", "TL"]⟩]
  else []

/-- The region that covers a region; the root where no other does. -/
def parent (script language region : List Char) : List Char :=
  match (branches script).find? fun b =>
      b.language.toList == language && b.children.any (·.toList == region) with
  | some b => b.parent.toList
  | none => []

/-- A region and the regions that cover it, for at most so many steps up. -/
def pathWithin (script language : List Char) : Nat → List Char → List (List Char)
  | 0, region => [region]
  | steps + 1, region =>
    if region = [] then [region]
    else region :: pathWithin script language steps (parent script language region)

/-- A region and all regions that cover it, nearest first; the last one is the root. Each
step up but the last goes to another covering region, so their number bounds the path. -/
def path (script language region : List Char) : List (List Char) :=
  pathWithin script language ((branches script).length + 1) region

/-- The steps up to the first region on a path that is among the targets, and which target
it is. -/
def climb (targets : List (List Char)) : List (List Char) → Option (Nat × Nat)
  | [] => none
  | region :: above =>
    match targets.findIdx? (· == region) with
    | some target => some (0, target)
    | none => (climb targets above).map fun hit => (hit.1 + 1, hit.2)

/-- The steps between a region and the request, through the nearest region that covers
both; `requestPath` is the path of the request. -/
def distance (script language : List Char) (requestPath : List (List Char))
    (region : List Char) : Nat :=
  match climb requestPath (path script language region) with
  | some (up, down) => up + down
  | none => (path script language region).length + requestPath.length - 1

/-- The locales that speakers elsewhere understand best, as language, script and region. -/
def representatives : List (String × String × String) :=
  [
    ("ar", "Arab", "EG"), ("de", "Latn", "DE"), ("en", "Latn", "GB"), ("en", "Latn", "US"),
    ("es", "Latn", "ES"), ("es", "Latn", "MX"), ("fr", "Latn", "FR"), ("it", "Latn", "IT"),
    ("ja", "Jpan", "JP"), ("ko", "Kore", "KR"), ("nl", "Latn", "NL"), ("pt", "Latn", "BR"),
    ("pt", "Latn", "PT"), ("ru", "Cyrl", "RU"), ("sr", "Cyrl", "RS"), ("zh", "Hans", "CN"),
    ("zh", "Hant", "HK"), ("zh", "Hant", "TW")]

/-- Whether a region stands for its language and script. -/
def isRepresentative (script language region : List Char) : Bool :=
  representatives.any fun e =>
    e.1.toList == language && e.2.1.toList == script && e.2.2.toList == region

/-- Which of two regions serves a request better, the greater being the better one: the one
the request lies in and lies in more closely, the nearer one in the tree, the
representative one, and last the one with the lower packed code. -/
def compareFor (left right : Subtag) (language : Subtag) (script : Script) (request : Subtag) :
    Ordering :=
  if left = right then .eq
  else
    let language := language.languageText
    let script := (Text.strictUtf8? (script.toList.takeWhile (· ≠ 0))).getD []
    let requestPath := path script language request.regionText
    match climb [left.regionText, right.regionText] requestPath with
    | some (_, 0) => .gt
    | some (_, _ + 1) => .lt
    | none =>
      let far (region : Subtag) := distance script language requestPath region.regionText
      let known (region : Subtag) :=
        if isRepresentative script language region.regionText then 1 else 0
      ((compare (far right) (far left)).then (compare (known left) (known right))).then
        (compare right.bigEndian left.bigEndian)

/-- The regions whose English follows the American one, the root among them. -/
def closeToAmericanEnglish : List String :=
  ["", "AS", "GU", "MH", "MP", "PR", "UM", "US", "VI"]

/-- Whether the English of a region follows the American one. -/
def followsAmericanEnglish (region : Subtag) : Bool :=
  closeToAmericanEnglish.any (·.toList == region.regionText)

end RegionTree

end AppResources
