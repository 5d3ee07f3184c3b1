import AppResources.Locale.Subtag

/-!
# The script a language is usually written in

A locale that names no script is taken to mean the usual script of its language,
which may depend on the region.
-/

namespace AppResources

/-- A script code, zero padded; four zero bytes mean "none". -/
abbrev Script := Vector UInt8 4

namespace Script

/-- No script. -/
def none : Script := Vector.replicate 4 0

/-- The script with a code of up to four ASCII characters. -/
def ofCode (code : String) : Script :=
  Vector.ofFn fun i => ((Text.asciiBytes code.toList)[i.val]?).getD 0

/-- Whether there is a script. -/
def isSet (s : Script) : Bool := s[0] != 0

/-- Languages with their usual script. -/
def likely : List (String × String) :=
  [
    ("af", "Latn"), ("am", "Ethi"), ("ar", "Arab"), ("as", "Beng"), ("az", "Latn"),
    ("be", "Cyrl"), ("bg", "Cyrl"), ("bn", "Beng"), ("bo", "Tibt"), ("bs", "Latn"),
    ("ca", "Latn"), ("cs", "Latn"), ("cy", "Latn"), ("da", "Latn"), ("de", "Latn"),
    ("el", "Grek"), ("en", "Latn"), ("es", "Latn"), ("et", "Latn"), ("eu", "Latn"),
    ("fa", "Arab"), ("fi", "Latn"), ("fil", "Latn"), ("fo", "Latn"), ("fr", "Latn"),
    ("ga", "Latn"), ("gl", "Latn"), ("gu", "Gujr"), ("ha", "Latn"), ("he", "Hebr"),
    ("hi", "Deva"), ("hr", "Latn"), ("hu", "Latn"), ("hy", "Armn"), ("id", "Latn"),
    ("in", "Latn"), ("is", "Latn"), ("it", "Latn"), ("iw", "Hebr"), ("ja", "Jpan"),
    ("ka", "Geor"), ("kk", "Cyrl"), ("km", "Khmr"), ("kn", "Knda"), ("ko", "Kore"),
    ("ky", "Cyrl"), ("lo", "Laoo"), ("lt", "Latn"), ("lv", "Latn"), ("mk", "Cyrl"),
    ("ml", "Mlym"), ("mn", "Cyrl"), ("mr", "Deva"), ("ms", "Latn"), ("my", "Mymr"),
    ("nb", "Latn"), ("ne", "Deva"), ("nl", "Latn"), ("no", "Latn"), ("or", "Orya"),
    ("pa", "Guru"), ("pl", "Latn"), ("ps", "Arab"), ("pt", "Latn"), ("ro", "Latn"),
    ("ru", "Cyrl"), ("si", "Sinh"), ("sk", "Latn"), ("sl", "Latn"), ("sq", "Latn"),
    ("sr", "Cyrl"), ("sv", "Latn"), ("sw", "Latn"), ("ta", "Taml"), ("te", "Telu"),
    ("th", "Thai"), ("tl", "Latn"), ("tr", "Latn"), ("uk", "Cyrl"), ("ur", "Arab"),
    ("uz", "Latn"), ("vi", "Latn"), ("yi", "Hebr"), ("zh", "Hans"), ("zu", "Latn")]

/-- Languages that are written in another script in some region. -/
def likelyInRegion : List (String × String × String) :=
  [
    ("az", "IR", "Arab"), ("pa", "PK", "Arab"), ("sr", "ME", "Latn"), ("uz", "AF", "Arab"),
    ("zh", "HK", "Hant"), ("zh", "MO", "Hant"), ("zh", "TW", "Hant")]

/-- The usual script of a language in a region, as far as it is known. -/
def likelyCode? (language region : List Char) : Option String :=
  match likelyInRegion.find? fun e => e.1.toList == language && e.2.1.toList == region with
  | some e => some e.2.2
  | .none => (likely.find? fun e => e.1.toList == language).map (·.2)

/-- The usual script of a packed language in a region; none where it is not known. -/
def compute (language region : Subtag) : Script :=
  if language.isSet then
    match likelyCode? language.languageText region.regionText with
    | some code => ofCode code
    | .none => Script.none
  else Script.none

end Script

end AppResources
