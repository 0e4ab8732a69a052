import AwkStartup.Toml.Value

/-!
# Scalars of configuration documents

Booleans, integers, floats, dates and times. Digits may be grouped by single underscores, and
decimal numbers have no needless leading zero.
-/

namespace AwkStartup
namespace Toml
namespace Scalar

def isDigit (c : Char) : Bool :=
  '0' ≤ c && c ≤ '9'

def digitValue? (c : Char) : Option Nat :=
  if isDigit c then some (c.toNat - 48)
  else if 'a' ≤ c ∧ c ≤ 'f' then some (c.toNat - 87)
  else if 'A' ≤ c ∧ c ≤ 'F' then some (c.toNat - 55)
  else none

def isDigitOf (base : Nat) (c : Char) : Bool :=
  match digitValue? c with
  | some d => d < base
  | none => false

/-- Digits with the underscores between them removed; the flag says that a digit precedes. -/
def ungroup? (base : Nat) : Bool → List Char → Option (List Char)
  | afterDigit, [] => if afterDigit then some [] else none
  | afterDigit, '_' :: s => if afterDigit then ungroup? base false s else none
  | _, c :: s => if isDigitOf base c then (ungroup? base true s).map (c :: ·) else none

def number (base : Nat) (digits : List Char) : Nat :=
  digits.foldl (fun n c => n * base + (digitValue? c).getD 0) 0

def readSign : List Char → Bool × Bool × List Char
  | '-' :: s => (true, true, s)
  | '+' :: s => (true, false, s)
  | s => (false, false, s)

def decimalDigits? (s : List Char) : Option (List Char) :=
  match ungroup? 10 false s with
  | some digits => if digits.head? = some '0' ∧ digits ≠ ['0'] then none else some digits
  | none => none

def integer? (s : List Char) : Option Int :=
  let (signed, negative, digits) := readSign s
  let magnitude : Option Nat :=
    match digits with
    | '0' :: 'x' :: s => if signed then none else (ungroup? 16 false s).map (number 16)
    | '0' :: 'o' :: s => if signed then none else (ungroup? 8 false s).map (number 8)
    | '0' :: 'b' :: s => if signed then none else (ungroup? 2 false s).map (number 2)
    | s => (decimalDigits? s).map (number 10)
  magnitude.bind fun m =>
    let n : Int := if negative then -(m : Int) else m
    if -0x8000000000000000 ≤ n ∧ n < 0x8000000000000000 then some n else none

def exponent? (s : List Char) : Option Int :=
  let (_, negative, digits) := readSign s
  (ungroup? 10 false digits).map fun ds =>
    let n : Int := number 10 ds
    if negative then -n else n

def isExponentLetter (c : Char) : Bool :=
  c = 'e' || c = 'E'

/-- A float with a fraction, an exponent or both; one that overflows is refused. -/
def decimalFloat? (negative : Bool) (s : List Char) : Option Binary64 :=
  let mantissa := s.takeWhile fun c => !isExponentLetter c
  let (whole, fraction) := (mantissa.takeWhile (· != '.'), mantissa.dropWhile (· != '.'))
  let exponent : Option (Option Int) :=
    match s.dropWhile fun c => !isExponentLetter c with
    | [] => some none
    | _ :: s => (exponent? s).map some
  let digits : Option (List Char) :=
    match fraction with
    | [] => some []
    | _ :: s => ungroup? 10 false s
  match decimalDigits? whole, digits, exponent with
  | some w, some f, some e =>
    if fraction = [] ∧ e = none then none
    else
      let x := Binary64.ofDecimal negative (number 10 (w ++ f)) (e.getD 0 - f.length)
      if x.isFinite then some x else none
  | _, _, _ => none

def float? (s : List Char) : Option Binary64 :=
  let (_, negative, rest) := readSign s
  if rest = ['i', 'n', 'f'] then some (.ofMagnitude negative Binary64.infinityBits)
  else if rest = ['n', 'a', 'n'] then
    some (.ofMagnitude negative (Binary64.infinityBits + 0x8000000000000))
  else decimalFloat? negative rest

def twoDigits? (least most : Nat) : List Char → Option (Nat × List Char)
  | a :: b :: s =>
    if isDigit a && isDigit b then
      let n := number 10 [a, b]
      if least ≤ n ∧ n ≤ most then some (n, s) else none
    else none
  | _ => none

def isLeapYear (year : Nat) : Bool :=
  year % 4 = 0 && (year % 100 ≠ 0 || year % 400 = 0)

def daysIn (year month : Nat) : Nat :=
  if month = 2 then (if isLeapYear year then 29 else 28)
  else if month = 4 ∨ month = 6 ∨ month = 9 ∨ month = 11 then 30
  else 31

/-- A date of the calendar, and the rest. -/
def readDate? : List Char → Option (List Char)
  | a :: b :: c :: d :: '-' :: s =>
    if [a, b, c, d].all isDigit then
      (twoDigits? 1 12 s).bind fun (month, s) =>
        match s with
        | '-' :: s => (twoDigits? 1 (daysIn (number 10 [a, b, c, d]) month) s).map Prod.snd
        | _ => none
    else none
  | _ => none

/-- A time of the day, and the rest. A minute may have a leap second. -/
def readTime? (s : List Char) : Option (List Char) :=
  (twoDigits? 0 23 s).bind fun (_, s) =>
    match s with
    | ':' :: s =>
      (twoDigits? 0 59 s).bind fun (_, s) =>
        match s with
        | ':' :: s =>
          (twoDigits? 0 60 s).bind fun (_, s) =>
            match s with
            | '.' :: s => if (s.takeWhile isDigit).isEmpty then none else some (s.dropWhile isDigit)
            | s => some s
        | _ => none
    | _ => none

def isOffset (s : List Char) : Bool :=
  match s with
  | ['Z'] | ['z'] => true
  | c :: s =>
    (c = '+' || c = '-') &&
      match twoDigits? 0 23 s with
      | some (_, ':' :: s) => (twoDigits? 0 59 s).any fun (_, rest) => rest.isEmpty
      | _ => false
  | [] => false

def isDateTime (s : List Char) : Bool :=
  match readDate? s with
  | some [] => true
  | some (sep :: time) =>
    (sep = 'T' || sep = 't' || sep = ' ') &&
      match readTime? time with
      | some rest => rest.isEmpty || isOffset rest
      | none => false
  | none =>
    match readTime? s with
    | some rest => rest.isEmpty
    | none => false

def value? (s : List Char) : Option Value :=
  if s = ['t', 'r', 'u', 'e'] then some (.boolean true)
  else if s = ['f', 'a', 'l', 's', 'e'] then some (.boolean false)
  else if isDateTime s then some .dateTime
  else
    match integer? s with
    | some n => some (.integer n)
    | none => (float? s).map .float

end Scalar
end Toml
end AwkStartup
