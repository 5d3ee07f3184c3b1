import AppResources.Config

/-!
# Language tags

A tag is a list of subtags with dashes between them. Reading goes from left to
right and decides by the length of a subtag what it is; behind the subtag `u`
stand the keywords of the Unicode extension, of which only the numbering system
(`nu`) is kept. The first subtag that fits nowhere ends the reading.

## Main definitions

* `Locale.ofTag`: the locale of a tag.
* `Locale.tag`: the tag of a locale.
* `Config.withTag`: a configuration with the locale of a tag.
-/

namespace AppResources

/-- Where the reading of the Unicode extension stands. -/
inductive ExtensionState where
  /-- Before the first keyword. -/
  | start
  /-- A keyword has to follow. -/
  | expectKey
  /-- Behind a keyword whose value is not kept. -/
  | ignoredKey
  /-- Behind the keyword of the numbering system. -/
  | numberingKey
  deriving DecidableEq, Repr

/-- Where the reading of a tag stands. -/
inductive TagState where
  /-- Among language, script, region and variants. -/
  | base
  /-- Inside the Unicode extension. -/
  | extension (s : ExtensionState)
  /-- The rest of the tag does not count. -/
  | ended
  deriving DecidableEq, Repr

namespace LongSubtag

/-- The field with its first bytes replaced by the given ones in lower case. The other
bytes stay. -/
def overwrite (field : LongSubtag) (bytes : List UInt8) : LongSubtag :=
  Vector.ofFn fun i =>
    match bytes[i.val]? with
    | some b => Text.lowerByte b
    | none => field.get i

end LongSubtag

namespace Locale

/-- The script that four bytes name: one capital and three small letters. -/
def scriptOf (part : List UInt8) : Script :=
  Vector.ofFn fun i =>
    match part[i.val]? with
    | some b => if i.val = 0 then Text.upperByte b else Text.lowerByte b
    | none => 0

/-- Reads a subtag among language, script, region and variants. -/
def readBase (l : Locale) (part : List UInt8) : TagState × Locale :=
  match part.length with
  | 1 => if Text.spells "u" part then (.extension .start, l) else (.ended, l)
  | 2 | 3 =>
    if l.language.isSet then (.base, { l with region := .ofRegion part })
    else (.base, { l with language := .ofLanguage part })
  | 4 =>
    if (part.head?.map Text.isDigitByte).getD false then
      (.base, { l with variant := l.variant.overwrite part })
    else (.base, { l with script := scriptOf part })
  | 5 | 6 | 7 | 8 => (.base, { l with variant := l.variant.overwrite part })
  | _ => (.ended, l)

/-- Reads a subtag inside the Unicode extension. Only the first numbering system counts. -/
def readExtension (l : Locale) (s : ExtensionState) (part : List UInt8) : TagState × Locale :=
  match part.length with
  | 2 =>
    match s with
    | .start | .expectKey =>
      (.extension (if Text.spells "nu" part then .numberingKey else .ignoredKey), l)
    | .ignoredKey | .numberingKey => (.ended, l)
  | 3 | 4 | 5 | 6 | 7 | 8 =>
    match s with
    | .start => (.extension .start, l)
    | .ignoredKey => (.extension .expectKey, l)
    | .expectKey => (.ended, l)
    | .numberingKey =>
      if l.hasNumbering then (.ended, l)
      else (.extension .expectKey, { l with numbering := l.numbering.overwrite part })
  | _ => (.ended, l)

/-- Reads one subtag. -/
def readPart : TagState × Locale → List UInt8 → TagState × Locale
  | (.base, l), part => l.readBase part
  | (.extension s, l), part => l.readExtension s part
  | (.ended, l), _ => (.ended, l)

/-- The locale that subtags name, with a missing script filled in. -/
def ofParts (parts : List (List UInt8)) : Locale :=
  let l := (parts.foldl readPart (.base, {})).2
  if l.script.isSet then l else { l.computeScript with scriptComputed := true }

/-- The locale of a tag. -/
def ofTag (tag : String) : Locale :=
  ofParts ((Text.utf8Bytes tag).splitOn 0x2d)

/-- The subtags of a locale. Tagalog is written as Filipino in a canonical tag. -/
def tagParts (l : Locale) (canonical : Bool) : List (List Char) :=
  let language := l.language.languageText
  (if l.language.isSet then
      [if canonical && language == "tl".toList then "fil".toList else language] else []) ++
    (if l.hasOwnScript then [l.scriptText] else []) ++
    (if l.region.isSet then [l.region.regionText] else []) ++
    (if l.hasVariant then [l.variantText] else []) ++
    (if l.hasNumbering then ["u".toList, "nu".toList, l.numberingText] else [])

/-- The tag of a locale. -/
def tag (l : Locale) (canonical : Bool) : String :=
  String.ofList (['-'].intercalate (l.tagParts canonical))

end Locale

/-- The configuration with the locale of a tag. -/
def Config.withTag (c : Config) (tag : String) : Config := { c with locale := Locale.ofTag tag }

end AppResources
