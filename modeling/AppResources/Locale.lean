import AppResources.Locale.Script
import AppResources.Text.Utf8

/-!
# Locales

A locale is a language with an optional region, script, variant and numbering
system. A script may also be filled in from the language; it is then marked as
computed and does not count as a choice of its own.
-/

namespace AppResources

/-- A subtag of up to eight bytes, zero padded. -/
abbrev LongSubtag := Vector UInt8 8

/-- A locale. -/
structure Locale where
  /-- The language. -/
  language : Subtag := .none
  /-- The region. -/
  region : Subtag := .none
  /-- The script. -/
  script : Script := Script.none
  /-- Whether the script was filled in from language and region. -/
  scriptComputed : Bool := false
  /-- The variant. -/
  variant : LongSubtag := Vector.replicate 8 0
  /-- The numbering system. -/
  numbering : LongSubtag := Vector.replicate 8 0
  deriving DecidableEq, Inhabited

namespace Locale

/-- Language and region as one number, the language lowest. -/
def code (l : Locale) : Nat :=
  l.language.first.toNat + 256 * (l.language.second.toNat + 256 * (l.region.first.toNat +
    256 * l.region.second.toNat))

/-- Whether the locale names a script itself. -/
def hasOwnScript (l : Locale) : Bool := l.script.isSet && !l.scriptComputed

/-- Whether there is a variant. -/
def hasVariant (l : Locale) : Bool := l.variant[0] != 0

/-- Whether there is a numbering system. -/
def hasNumbering (l : Locale) : Bool := l.numbering[0] != 0

/-- The script that the locale names itself, or none. -/
def ownScript (l : Locale) : Script :=
  if l.scriptComputed then Script.none else l.script

/-- Fills in the script from language and region; it is left unmarked. -/
def computeScript (l : Locale) : Locale :=
  { l with script := Script.compute l.language l.region }

/-- The characters of a padded field: its bytes up to the first zero, or nothing where
they are not valid text. -/
def paddedText (bytes : List UInt8) : List Char :=
  (Text.strictUtf8? (bytes.takeWhile (· ≠ 0))).getD []

/-- The characters of the script. -/
def scriptText (l : Locale) : List Char := paddedText l.script.toList

/-- The characters of the variant. -/
def variantText (l : Locale) : List Char := paddedText l.variant.toList

/-- The characters of the numbering system. -/
def numberingText (l : Locale) : List Char := paddedText l.numbering.toList

end Locale

end AppResources
