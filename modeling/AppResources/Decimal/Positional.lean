import AppResources.Decimal.Shortest
import AppResources.Text.Number

/-!
# Floating-point numbers as positional decimals

The text of a floating-point number: its shortest decimal, written without an
exponent however large or small it is, with a fraction only where it has one.
-/

namespace AppResources.Decimal

/-- A decimal without exponent. -/
def Scientific.positional (s : Scientific) : String :=
  let digits := Text.decimalChars s.digits
  let places := (-s.exponent).toNat
  String.ofList <|
    if places = 0 then digits ++ List.replicate s.exponent.toNat '0'
    else if places < digits.length then
      digits.take (digits.length - places) ++ '.' :: digits.drop (digits.length - places)
    else '0' :: '.' :: List.replicate (places - digits.length) '0' ++ digits

/-- The text of a bit pattern. Zero keeps its sign, a pattern that is no number has none. -/
def BinaryFormat.text (f : BinaryFormat) (bits : Nat) : String :=
  let unsigned :=
    match f.classify bits with
    | .zero => "0"
    | .infinite => "inf"
    | .notANumber => "NaN"
    | .positive n => n.shortest.positional
  match f.classify bits with
  | .notANumber => unsigned
  | _ => if f.isNegative bits then "-" ++ unsigned else unsigned

/-- The text of the single-precision number with these bits. -/
def singleText (bits : UInt32) : String :=
  single.text bits.toNat

/-- The text of a double-precision number. -/
def doubleText (x : Float) : String :=
  double.text x.toBits.toNat

end AppResources.Decimal
