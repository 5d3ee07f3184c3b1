/-!
# The shortest decimal that reads back

A binary floating-point number stands for every real that rounds to it. This
module takes such an interval in exact natural-number arithmetic and finds the
decimal with the fewest digits inside it; of two with equally many digits the
nearer one, and of two equally near the greater one.

## Main definitions

* `BinaryFormat.classify`: what a bit pattern stands for.
* `Neighbourhood.shortest`: the decimal chosen for an interval.
-/

namespace AppResources.Decimal

/-- The layout of a binary floating-point word. -/
structure BinaryFormat where
  /-- Width of the fraction. -/
  fractionBits : Nat
  /-- Width of the exponent. -/
  exponentBits : Nat

/-- The 32-bit format. -/
def single : BinaryFormat := ⟨23, 8⟩

/-- The 64-bit format. -/
def double : BinaryFormat := ⟨52, 11⟩

/-- A positive number with the reals that round to it, all in units of `2 ^ scale`. -/
structure Neighbourhood where
  /-- The number itself. -/
  value : Nat
  /-- Lower end of the interval. -/
  low : Nat
  /-- Upper end of the interval. -/
  high : Nat
  /-- Exponent of the unit. -/
  scale : Int
  /-- Whether the ends belong to the interval. -/
  closed : Bool

/-- What a bit pattern stands for, its sign left out. -/
inductive Magnitude where
  | zero
  | infinite
  | notANumber
  | positive (n : Neighbourhood)

/-- Number of distinct fractions. -/
def BinaryFormat.fractions (f : BinaryFormat) : Nat := Nat.pow 2 f.fractionBits

/-- Number of distinct exponents. -/
def BinaryFormat.exponents (f : BinaryFormat) : Nat := Nat.pow 2 f.exponentBits

/-- What is taken from an exponent to get the power of two that it stands for. -/
def BinaryFormat.bias (f : BinaryFormat) : Nat := f.exponents / 2 - 1

/-- Reads a bit pattern. An even fraction owns both ends of its interval, and the
distance to the number below halves at a power of two. -/
def BinaryFormat.classify (f : BinaryFormat) (bits : Nat) : Magnitude :=
  let fraction := bits % f.fractions
  let exponent := bits / f.fractions % f.exponents
  if exponent = f.exponents - 1 then
    if fraction = 0 then .infinite else .notANumber
  else if exponent = 0 ∧ fraction = 0 then .zero
  else
    let significand := if exponent = 0 then fraction else f.fractions + fraction
    .positive {
      value := 4 * significand
      low := if exponent ≠ 0 ∧ fraction = 0 then 4 * significand - 1 else 4 * significand - 2
      high := 4 * significand + 2
      scale := (if exponent = 0 then 1 else (exponent : Int)) - f.bias - f.fractionBits - 2
      closed := fraction % 2 = 0 }

/-- Whether the sign bit of a pattern is set. -/
def BinaryFormat.isNegative (f : BinaryFormat) (bits : Nat) : Bool :=
  bits / (f.fractions * f.exponents) % 2 = 1

/-- The decimal `digits * 10 ^ exponent`. -/
structure Scientific where
  /-- The significant digits as a number. -/
  digits : Nat
  /-- Exponent of the last digit. -/
  exponent : Int
  deriving DecidableEq, Repr

namespace Neighbourhood

/-- The point of the grid of multiples of `10 ^ k` that stands for the number, if the
interval holds one: only the two grid points around the number can be nearest. -/
def gridPoint? (n : Neighbourhood) (k : Int) : Option Nat :=
  let factor := Nat.pow 2 n.scale.toNat * Nat.pow 10 (-k).toNat
  let step := Nat.pow 2 (-n.scale).toNat * Nat.pow 10 k.toNat
  let value := n.value * factor
  let inside (d : Nat) : Bool :=
    if n.closed then n.low * factor ≤ d * step && d * step ≤ n.high * factor
    else n.low * factor < d * step && d * step < n.high * factor
  let below := value / step
  let above := below + 1
  match inside below, inside above with
  | true, true => some (if value - below * step < above * step - value then below else above)
  | true, false => some below
  | false, true => some above
  | false, false => none

/-- Tries grids of falling step, from `10 ^ k` on. -/
def shortestFrom (n : Neighbourhood) : Nat → Int → Scientific
  | 0, k => ⟨0, k⟩
  | fuel + 1, k =>
    match n.gridPoint? k with
    | some d => ⟨d, k⟩
    | none => n.shortestFrom fuel (k - 1)

/-- The shortest decimal of the interval. The first grid tried is coarser than the
number, and seventeen digits always suffice for both formats. -/
def shortest (n : Neighbourhood) : Scientific :=
  let width : Int := n.value.log2 + 1 + n.scale
  n.shortestFrom 25 (width * 30103 / 100000 + 2)

end Neighbourhood

end AppResources.Decimal
