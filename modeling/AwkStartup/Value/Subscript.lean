import AwkStartup.Number.Leading

/-!
# Array subscripts

A text that is the canonical decimal spelling of a 64-bit integer names the same element as
that integer, so such texts are kept as integers. Other texts stay texts.
-/

namespace AwkStartup

/-- The subscript of an array element. -/
inductive Subscript where
  | int (n : Int)
  | text (s : String)
  deriving DecidableEq, Repr

namespace Subscript

/-- The integers of 64 bits. -/
def InRange (n : Int) : Prop :=
  -0x8000000000000000 ≤ n ∧ n < 0x8000000000000000

instance (n : Int) : Decidable (InRange n) :=
  inferInstanceAs (Decidable (_ ∧ _))

/-- Decimal digits without a needless leading zero. -/
def isCanonicalDigits (digits : List Char) : Bool :=
  digits ≠ [] && digits.all Leading.isDigit && (digits = ['0'] || digits.head? ≠ some '0')

/-- The integer that a text spells canonically. -/
def canonicalInt? (s : List Char) : Option Int :=
  let (negative, digits) :=
    match s with
    | '-' :: digits => (true, digits)
    | digits => (false, digits)
  if isCanonicalDigits digits ∧ s ≠ ['-', '0'] then
    let n : Int := Nat.ofDigitChars 10 digits 0
    let n := if negative then -n else n
    if InRange n then some n else none
  else none

def ofText (s : String) : Subscript :=
  match canonicalInt? s.toList with
  | some n => int n
  | none => text s

/-- The subscript that a part of a text denotes. The part is copied only if it stays a text. -/
def ofSlice (s : String.Slice) : Subscript :=
  match canonicalInt? s.chars.toList with
  | some n => int n
  | none => text s.copy

/-- The subscript of a position; positions wrap at 64 bits. -/
def ofIndex (n : Nat) : Subscript :=
  int ((n : Int).bmod 0x10000000000000000)

def display : Subscript → String
  | int n => toString n
  | text s => s

/-- Integers in ascending order come before texts in code point order. -/
def le : Subscript → Subscript → Bool
  | int m, int n => m ≤ n
  | int _, text _ => true
  | text _, int _ => false
  | text s, text t => s ≤ t

end Subscript
end AwkStartup
