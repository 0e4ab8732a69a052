import AwkStartup.Number.Binary64
import AwkStartup.Number.Leading

/-!
# Texts that look like numbers

A numeral is a sign, digits around an optional point with at least one digit, and an optional
exponent. Blanks may stand around it. Hexadecimal forms and the names of infinity and NaN are
not numerals.
-/

namespace AwkStartup

/-- A decimal numeral, by its written parts. -/
structure Numeral where
  negative : Bool
  whole : List Char
  fraction : List Char
  exponent : Int
  deriving DecidableEq, Repr

namespace Numeral

def readSign : List Char → Bool × List Char
  | '-' :: s => (true, s)
  | '+' :: s => (false, s)
  | s => (false, s)

def readFraction : List Char → List Char × List Char
  | '.' :: s => (s.takeWhile Leading.isDigit, s.dropWhile Leading.isDigit)
  | s => ([], s)

/-- An exponent that fills the whole text; nothing written is exponent zero. -/
def readExponent? : List Char → Option Int
  | [] => some 0
  | c :: s =>
    if c = 'e' ∨ c = 'E' then
      let (negative, digits) := readSign s
      if digits ≠ [] ∧ digits.all Leading.isDigit then
        let n : Int := Nat.ofDigitChars 10 digits 0
        some (if negative then -n else n)
      else none
    else none

/-- A numeral that fills the whole text. -/
def read? (s : List Char) : Option Numeral :=
  let (negative, s) := readSign s
  let whole := s.takeWhile Leading.isDigit
  let (fraction, s) := readFraction (s.dropWhile Leading.isDigit)
  if whole = [] ∧ fraction = [] then none
  else (readExponent? s).map fun exponent => { negative, whole, fraction, exponent }

/-- The double nearest to a numeral. -/
def toBinary64 (n : Numeral) : Binary64 :=
  Binary64.ofDecimal n.negative (Nat.ofDigitChars 10 (n.whole ++ n.fraction) 0)
    (n.exponent - n.fraction.length)

/-- The value of a text that looks like a number. -/
def value? (text : String) : Option Binary64 :=
  (read? (Text.trimBlanks text.toList)).map toBinary64

end Numeral
end AwkStartup
