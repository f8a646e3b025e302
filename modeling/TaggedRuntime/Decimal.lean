namespace TaggedRuntime

/-- A whole number of steps of `10 ^ -places`. -/
structure Decimal where
  coefficient : Nat
  places : Nat
  deriving DecidableEq, Repr

namespace Decimal

-- powers of whole numbers are the core library's, whatever is imported with it
attribute [local instance (high)] instPowNat

theorem ten_pow_pos (n : Nat) : 0 < (10 : Nat) ^ n := Nat.pow_pos (by decide)

/-- The digits after the point of `rest / 10 ^ places`, for a `rest` below `10 ^ places`. They end at
the last one that is not zero. -/
def fractionDigits : Nat → Nat → List Char
  | 0, _ => []
  | places + 1, rest =>
    if rest = 0 then []
    else (rest / 10 ^ places).digitChar :: fractionDigits places (rest % 10 ^ places)

/-- Positional notation for every magnitude, never with an exponent. A whole number has no point. -/
def digits (d : Decimal) : List Char :=
  let whole := Nat.toDigits 10 (d.coefficient / 10 ^ d.places)
  match fractionDigits d.places (d.coefficient % 10 ^ d.places) with
  | [] => whole
  | fraction => whole ++ '.' :: fraction

/-- A minus sign stands before the digits of a negative number, zero included. -/
def signed (negative : Bool) (digits : List Char) : List Char :=
  if negative then '-' :: digits else digits

def ofInt (n : Int) : List Char := signed (n < 0) (Nat.toDigits 10 n.natAbs)

/-- The nearer of the value's two neighbours on a grid, among those accepted; the upper one of two as near. -/
def neighbour? (accepts : Nat → Bool) (value grid : Nat) : Option Nat :=
  let lower := value / grid * grid
  let upper := lower + grid
  match accepts lower, accepts upper with
  | true, true => some (if value - lower < upper - value then lower else upper)
  | true, false => some lower
  | false, true => some upper
  | false, false => none

/-- The accepted neighbour on the coarsest of the grids `10 ^ exponent`, …, `10`, or else the value itself. -/
def coarsest (accepts : Nat → Bool) (value : Nat) : Nat → Nat
  | 0 => value
  | exponent + 1 =>
    match neighbour? accepts value (10 ^ (exponent + 1)) with
    | some found => found
    | none => coarsest accepts value exponent

/-- The accepted number with the fewest significant digits, nearest to the value among those. The grids
begin with the one that leaves a single digit. -/
def shortest (accepts : Nat → Bool) (value : Nat) : Nat :=
  coarsest accepts value ((Nat.toDigits 10 value).length - 1)

end Decimal

end TaggedRuntime
