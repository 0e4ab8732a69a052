import AwkStartup.Number.Numeral
import AwkStartup.Number.Shortest

/-!
# Scalar values

A cell that may be numeric carries text from the command line or the environment. Checking it
decides whether the text reads as a number; a fixed string is never read as one.
-/

namespace AwkStartup

/-- A scalar value. -/
inductive Cell where
  | unset
  | double (x : Binary64)
  | string (s : String)
  | maybeNumeric (s : String)
  | numericString (s : String) (x : Binary64)
  deriving DecidableEq, Repr

namespace Cell

def text? : Cell → Option String
  | unset | double _ => none
  | string s | maybeNumeric s | numericString s _ => some s

def isMaybeNumeric : Cell → Bool
  | maybeNumeric _ => true
  | _ => false

/-- Settles a cell that may be numeric; other cells stay as they are. -/
def check : Cell → Cell
  | maybeNumeric s =>
    match Numeral.value? s with
    | some x => numericString s x
    | none => string s
  | c => c

/-- Doubles that are integers of at most sixteen digits are written as integers, other
doubles by their shortest text. -/
def displayDouble (x : Binary64) : String :=
  match x.integer? with
  | some n => if n.natAbs < 10000000000000000 then toString n else x.shortestText
  | none => x.shortestText

def display : Cell → String
  | unset => ""
  | double x => displayDouble x
  | string s | maybeNumeric s | numericString s _ => s

@[simp] theorem text?_check (c : Cell) : c.check.text? = c.text? := by
  cases c with
  | maybeNumeric s => cases h : Numeral.value? s <;> simp [check, text?, h]
  | _ => rfl

@[simp] theorem display_check (c : Cell) : c.check.display = c.display := by
  cases c with
  | maybeNumeric s => cases h : Numeral.value? s <;> simp [check, display, h]
  | _ => rfl

@[simp] theorem check_check (c : Cell) : c.check.check = c.check := by
  cases c with
  | maybeNumeric s => cases h : Numeral.value? s <;> simp [check, h]
  | _ => rfl

end Cell
end AwkStartup
