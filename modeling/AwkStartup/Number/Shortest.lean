import AwkStartup.Number.Binary64

/-!
# Shortest decimal text of a double

The text has the fewest significant digits that read back as the same double, and among those
the nearest to it; a tie goes up. It is always positional, never with an exponent.
-/

namespace AwkStartup
namespace Binary64

/-- The reals that round to a double: `value`, `low` and `high` over one denominator. The ends
belong to the interval when the significand is even. -/
structure RoundingInterval where
  value : Nat
  low : Nat
  high : Nat
  den : Nat
  closed : Bool

/-- The rounding interval of a finite magnitude. Below a power of two the doubles lie twice as
dense. -/
def roundingInterval (x : Binary64) : RoundingInterval :=
  let m := x.significand
  let below := if x.fractionField = 0 ∧ 1 < x.exponentField then 1 else 2
  let (unit, den) := shift 1 1 (x.scale - 2)
  { value := 4 * m * unit
    low := (4 * m - below) * unit
    high := (4 * m + 2) * unit
    den := den
    closed := m % 2 = 0 }

namespace RoundingInterval

/-- The number of digits before the point; when negative, of zeros after it. -/
def pointPosition (i : RoundingInterval) : Int :=
  if i.den ≤ i.value then (Nat.toDigits 10 (i.value / i.den)).length
  else 1 - (Nat.toDigits 10 ((i.den - 1) / i.value)).length

/-- The numerators of `n / den` and `digits * 10 ^ exponent` over a common denominator. -/
def comparable (i : RoundingInterval) (n digits : Nat) (exponent : Int) : Nat × Nat :=
  if 0 ≤ exponent then (n, digits * Nat.pow 10 exponent.toNat * i.den)
  else (n * Nat.pow 10 (-exponent).toNat, digits * i.den)

/-- Whether `digits * 10 ^ exponent` rounds to the double. -/
def contains (i : RoundingInterval) (digits : Nat) (exponent : Int) : Bool :=
  let (low, d) := i.comparable i.low digits exponent
  let (high, d') := i.comparable i.high digits exponent
  if i.closed then low ≤ d && d' ≤ high else low < d && d' < high

/-- The multiple of `10 ^ exponent` in the interval that is nearest to the value. -/
def nearest? (i : RoundingInterval) (exponent : Int) : Option Nat :=
  let (v, unit) := i.comparable i.value 1 exponent
  let below := v / unit
  match i.contains below exponent, i.contains (below + 1) exponent with
  | true, true => some (if 2 * (v % unit) < unit then below else below + 1)
  | true, false => some below
  | false, true => some (below + 1)
  | false, false => none

def shortestFrom (i : RoundingInterval) : Nat → Nat → Nat × Int
  | _, 0 => (0, 0)
  | count, fuel + 1 =>
    let exponent := i.pointPosition - count
    match i.nearest? exponent with
    | some digits => if digits = Nat.pow 10 count then (1, exponent + count) else (digits, exponent)
    | none => shortestFrom i (count + 1) fuel

/-- Seventeen digits always suffice. -/
def shortest (i : RoundingInterval) : Nat × Int :=
  i.shortestFrom 1 17

end RoundingInterval

def positional (digits : Nat) (exponent : Int) : List Char :=
  if 0 ≤ exponent then Nat.toDigits 10 digits ++ List.replicate exponent.toNat '0'
  else
    let places := (-exponent).toNat
    let written := Nat.toDigits 10 digits
    let padded := List.replicate (places + 1 - written.length) '0' ++ written
    padded.take (padded.length - places) ++ '.' :: padded.drop (padded.length - places)

def shortestText (x : Binary64) : String :=
  if x.isNaN then "NaN"
  else
    let magnitude :=
      if !x.isFinite then "inf"
      else if x.significand = 0 then "0"
      else
        let (digits, exponent) := x.roundingInterval.shortest
        String.ofList (positional digits exponent)
    if x.negative then "-" ++ magnitude else magnitude

end Binary64
end AwkStartup
