/-!
# Binary floating point

A double is kept as its 64 bits. Every computation on it is exact arithmetic on natural
numbers followed by one rounding to the nearest double, ties to even.
-/

namespace AwkStartup

/-- An IEEE 754 double, given by its bits. -/
structure Binary64 where
  bits : UInt64
  deriving DecidableEq, Repr

namespace Binary64

/-- The bits of positive infinity; smaller magnitudes are finite. -/
def infinityBits : Nat := 0x7ff0000000000000

def signBit : Nat := 0x8000000000000000

/-- The lowest bit of the exponent; the fraction lies below it. -/
def exponentBit : Nat := 0x10000000000000

def ofMagnitude (negative : Bool) (magnitude : Nat) : Binary64 :=
  ⟨UInt64.ofNat (if negative then magnitude + signBit else magnitude)⟩

def negative (x : Binary64) : Bool :=
  signBit ≤ x.bits.toNat

def exponentField (x : Binary64) : Nat :=
  x.bits.toNat / exponentBit % 2048

def fractionField (x : Binary64) : Nat :=
  x.bits.toNat % exponentBit

def isFinite (x : Binary64) : Bool :=
  x.exponentField ≠ 2047

def isNaN (x : Binary64) : Bool :=
  x.exponentField = 2047 && x.fractionField ≠ 0

/-- A finite magnitude is `significand * 2 ^ scale`. -/
def significand (x : Binary64) : Nat :=
  if x.exponentField = 0 then x.fractionField else exponentBit + x.fractionField

def scale (x : Binary64) : Int :=
  if x.exponentField = 0 then -1074 else (x.exponentField : Int) - 1075

/-- The fraction `num / den` multiplied by `2 ^ k`. -/
def shift (num den : Nat) (k : Int) : Nat × Nat :=
  if 0 ≤ k then (num <<< k.toNat, den) else (num, den <<< (-k).toNat)

/-- The greatest `e` with `2 ^ e ≤ num / den`, for positive `num` and `den`. -/
def floorLog2 (num den : Nat) : Int :=
  let e : Int := (num.log2 : Int) - (den.log2 : Int)
  let (n, d) := shift num den (-e)
  if n < d then e - 1 else e

/-- The natural number nearest to `num / den`, the even one of two. -/
def roundHalfEven (num den : Nat) : Nat :=
  let q := num / den
  let r := num % den
  if 2 * r < den ∨ (2 * r = den ∧ q % 2 = 0) then q else q + 1

/-- The magnitude bits of the double nearest to `num / den`. A significand rounded up to a
power of two carries into the exponent bits, and beyond the largest double lies infinity. -/
def nearestMagnitude (num den : Nat) : Nat :=
  if num = 0 then 0
  else
    let k : Int := min (52 - floorLog2 num den) 1074
    let (n, d) := shift num den k
    min ((1074 - k).toNat * exponentBit + roundHalfEven n d) infinityBits

/-- The double nearest to `num / den`, or to its negation. -/
def ofRatio (negative : Bool) (num den : Nat) : Binary64 :=
  ofMagnitude negative (nearestMagnitude num den)

def ofInt (n : Int) : Binary64 :=
  ofRatio (n < 0) n.natAbs 1

/-- The double nearest to `digits * 10 ^ exponent`. Magnitudes of more than 310 digits are
infinite and those below `10 ^ -330` are zero, so the power of ten stays small. -/
def ofDecimal (negative : Bool) (digits : Nat) (exponent : Int) : Binary64 :=
  let position : Int := (Nat.toDigits 10 digits).length + exponent
  if digits = 0 ∨ position < -330 then ofMagnitude negative 0
  else if 310 < position then ofMagnitude negative infinityBits
  else if 0 ≤ exponent then ofRatio negative (digits * Nat.pow 10 exponent.toNat) 1
  else ofRatio negative digits (Nat.pow 10 (-exponent).toNat)

/-- The value of a finite double that is an integer. -/
def integer? (x : Binary64) : Option Int :=
  let sign : Int := if x.negative then -1 else 1
  let (n, d) := shift x.significand 1 x.scale
  if x.isFinite ∧ n % d = 0 then some (sign * (n / d : Nat)) else none

end Binary64
end AwkStartup
