import AppResources.Decimal.Positional
import AppResources.Value

/-!
# Values as text

The text of a value: references and attributes by id, numbers in their notation,
dimensions and fractions with their unit, colours in hexadecimal digits. Strings
are indices into a pool, so their text needs the pool; without it the index is
shown.
-/

namespace AppResources

namespace ValueKind

/-- The name of a kind in reports. -/
def name : ValueKind → String
  | .null => "Null"
  | .reference => "Reference"
  | .attribute => "Attribute"
  | .string => "String"
  | .float => "Float"
  | .dimension => "Dimension"
  | .fraction => "Fraction"
  | .dynamicReference => "DynamicReference"
  | .dynamicAttribute => "DynamicAttribute"
  | .decimal => "Dec"
  | .hexadecimal => "Hex"
  | .boolean => "Boolean"
  | .colorArgb8 => "ColorArgb8"
  | .colorRgb8 => "ColorRgb8"
  | .colorArgb4 => "ColorArgb4"
  | .colorRgb4 => "ColorRgb4"
  | .unknown t => "Unknown(" ++ Text.decimal t.toNat ++ ")"

end ValueKind

namespace Value

/-- The radix of a fixed-point word, chosen by two of its bits. -/
def radix : Nat → Float
  | 0 => 0.00390625
  | 1 => 3.051758e-005
  | 2 => 1.192093e-007
  | _ => 4.656613e-010

/-- The number a fixed-point word stands for: its upper 24 bits times the radix. -/
def fixedPoint (data : UInt32) : Float :=
  Float.ofNat (data.toNat / 256 * 256) * radix (data.toNat / 16 % 4)

/-- The units of a dimension by number. -/
def dimensionUnits : List String := ["px", "dip", "sp", "pt", "in", "mm"]

/-- The units of a fraction by number. -/
def fractionUnits : List String := ["%", "%p"]

/-- The unit that the lowest four bits of a word name, if any. -/
def unitText (units : List String) (data : UInt32) : String :=
  (units[data.toNat % 16]?).getD ""

/-- An id after its sigil; ids of the framework say so. -/
def idText (sigil : String) (data : UInt32) : String :=
  sigil ++ (if data.toNat / 16777216 = 1 then "android:" else "") ++ Text.hex 8 data.toNat

/-- The word read as a two's complement integer. -/
def signed (data : UInt32) : Int :=
  if data.toNat < 2147483648 then data.toNat else data.toNat - 4294967296

/-- The text of a value without a string pool. -/
def text (v : Value) : String :=
  match v.kind with
  | .null => if v.data = 1 then "@empty" else "@null"
  | .reference => if v.data = 0 then "@null" else idText "@" v.data
  | .dynamicReference => idText "@" v.data
  | .attribute | .dynamicAttribute => idText "?" v.data
  | .string => "<string #" ++ Text.decimal v.data.toNat ++ ">"
  | .float => Decimal.singleText v.data
  | .dimension => Decimal.doubleText (fixedPoint v.data) ++ unitText dimensionUnits v.data
  | .fraction => Decimal.doubleText (fixedPoint v.data * 100.0) ++ unitText fractionUnits v.data
  | .decimal => Text.signedDecimal (signed v.data)
  | .hexadecimal => "0x" ++ Text.hex 8 v.data.toNat
  | .boolean => if v.data = 0 then "false" else "true"
  | .colorArgb8 | .colorRgb8 | .colorArgb4 | .colorRgb4 => "#" ++ Text.hex 8 v.data.toNat
  | .unknown t => "<0x" ++ Text.hex 1 v.data.toNat ++ ", type " ++ Text.hexByte t ++ ">"

/-- The text of a value whose strings are looked up in a pool. -/
def textWith (strings : Nat → Option String) (v : Value) : String :=
  match v.kind with
  | .string => (strings v.data.toNat).getD v.text
  | _ => v.text

end Value

end AppResources
