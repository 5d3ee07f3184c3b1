import AppResources.Config

/-!
# Qualifier words

The words that stand for one value of one field of a configuration, and the names
of densities. Reading and printing use the same tables.
-/

namespace AppResources

/-- A word for one value of a field. -/
structure QualifierWord where
  /-- The word. -/
  word : String
  /-- The field it sets. -/
  field : ConfigField
  /-- The value it sets, at its place in the byte. -/
  value : UInt8
  deriving DecidableEq

namespace QualifierWord

/-- All words. -/
def all : List QualifierWord :=
  [ ⟨"ldltr", .layoutDirection, 0x40⟩
  , ⟨"ldrtl", .layoutDirection, 0x80⟩
  , ⟨"small", .sizeClass, 0x01⟩
  , ⟨"normal", .sizeClass, 0x02⟩
  , ⟨"large", .sizeClass, 0x03⟩
  , ⟨"xlarge", .sizeClass, 0x04⟩
  , ⟨"long", .aspect, 0x20⟩
  , ⟨"notlong", .aspect, 0x10⟩
  , ⟨"round", .roundness, 0x02⟩
  , ⟨"notround", .roundness, 0x01⟩
  , ⟨"widecg", .gamut, 0x02⟩
  , ⟨"nowidecg", .gamut, 0x01⟩
  , ⟨"highdr", .dynamicRange, 0x08⟩
  , ⟨"lowdr", .dynamicRange, 0x04⟩
  , ⟨"port", .orientation, 0x01⟩
  , ⟨"land", .orientation, 0x02⟩
  , ⟨"square", .orientation, 0x03⟩
  , ⟨"desk", .deviceKind, 0x02⟩
  , ⟨"car", .deviceKind, 0x03⟩
  , ⟨"television", .deviceKind, 0x04⟩
  , ⟨"appliance", .deviceKind, 0x05⟩
  , ⟨"watch", .deviceKind, 0x06⟩
  , ⟨"vrheadset", .deviceKind, 0x07⟩
  , ⟨"night", .night, 0x20⟩
  , ⟨"notnight", .night, 0x10⟩
  , ⟨"notouch", .touchscreen, 0x01⟩
  , ⟨"stylus", .touchscreen, 0x02⟩
  , ⟨"finger", .touchscreen, 0x03⟩
  , ⟨"keysexposed", .keysHidden, 0x01⟩
  , ⟨"keyshidden", .keysHidden, 0x02⟩
  , ⟨"keyssoft", .keysHidden, 0x03⟩
  , ⟨"nokeys", .keyboard, 0x01⟩
  , ⟨"qwerty", .keyboard, 0x02⟩
  , ⟨"12key", .keyboard, 0x03⟩
  , ⟨"navexposed", .navigationHidden, 0x04⟩
  , ⟨"navhidden", .navigationHidden, 0x08⟩
  , ⟨"nonav", .navigation, 0x01⟩
  , ⟨"dpad", .navigation, 0x02⟩
  , ⟨"trackball", .navigation, 0x03⟩
  , ⟨"wheel", .navigation, 0x04⟩ ]

/-- The entry of a word. -/
def find? (word : List Char) : Option QualifierWord :=
  all.find? fun w => w.word.toList == word

/-- The word for the value that a field has, if there is one. -/
def ofField? (f : ConfigField) (c : Config) : Option (List Char) :=
  (all.find? fun w => w.field == f && w.value == f.get c).map (·.word.toList)

end QualifierWord

/-- Names of densities. -/
def densityNames : List (String × UInt16) :=
  [("ldpi", 120), ("mdpi", 160), ("tvdpi", 213), ("hdpi", 240), ("xhdpi", 320),
    ("xxhdpi", 480), ("xxxhdpi", 640), ("anydpi", anyDensity), ("nodpi", noDensity)]

/-- A qualifier that is a number behind a letter or two. -/
inductive NumberQualifier where
  | mcc
  | mnc
  | smallestWidth
  | width
  | height
  | version
  deriving DecidableEq, Repr

namespace NumberQualifier

/-- All of them, in the order in which they are recognised. -/
def all : List NumberQualifier :=
  [.mcc, .mnc, .smallestWidth, .width, .height, .version]

/-- What stands in front of the number. -/
def mark : NumberQualifier → String
  | .mcc => "mcc"
  | .mnc => "mnc"
  | .smallestWidth => "sw"
  | .width => "w"
  | .height => "h"
  | .version => "v"

/-- Whether `dp` stands behind the number. -/
def inDp : NumberQualifier → Bool
  | .mcc | .mnc | .version => false
  | .smallestWidth | .width | .height => true

/-- Sets the field of a qualifier. -/
def set (q : NumberQualifier) (value : UInt16) (c : Config) : Config :=
  match q with
  | .mcc => { c with mcc := value }
  | .mnc => { c with mnc := value }
  | .smallestWidth => { c with smallestWidthDp := value }
  | .width => { c with widthDp := value }
  | .height => { c with heightDp := value }
  | .version => { c with sdkVersion := value }

end NumberQualifier

end AppResources
