import AwkStartup.Text.Utf8

/-!
# The integer at the front of a text

Blanks, one sign and decimal digits are read; the rest is ignored and no digits mean zero.
Each digit saturates at the largest 64-bit integer.
-/

namespace AwkStartup
namespace Leading

def limit : Int := 0x7fffffffffffffff

def isDigit (c : Char) : Bool :=
  '0' ≤ c && c ≤ '9'

theorem isDigit_iff_toNat {c : Char} : isDigit c = true ↔ 48 ≤ c.toNat ∧ c.toNat ≤ 57 := by
  rw [isDigit, Bool.and_eq_true, decide_eq_true_eq, decide_eq_true_eq]
  exact Iff.rfl

def digitValue (c : Char) : Nat :=
  c.toNat - '0'.toNat

/-- One more digit, saturating after the product and after the sum. -/
def push (n : Int) (c : Char) : Int :=
  min (min (n * 10) limit + digitValue c) limit

/-- The digits at the front of a text, saturating. -/
def digits (s : List Char) : Int :=
  (s.takeWhile isDigit).foldl push 0

def negate? (n : Int) : Option Int :=
  if -n ≤ limit then some (-n) else none

/-- The integer at the front of a text. The sign is cut off as one byte and the negation is
checked; neither can fail, so there is always an answer. -/
def integer? (text : String) : Option Int :=
  let s := text.toList.dropWhile Text.isBlank
  match s.head? with
  | some '-' => (Text.dropBytes? 1 s).bind fun rest => negate? (digits rest)
  | some '+' => (Text.dropBytes? 1 s).map digits
  | _ => some (digits s)

end Leading

/-- The signed 32-bit number formed by the low 32 bits of an integer. -/
def wrap32 (n : Int) : Int :=
  n.bmod 0x100000000

end AwkStartup
