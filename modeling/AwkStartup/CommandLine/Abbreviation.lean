import AwkStartup.Text.Utf8

/-!
# Abbreviated keywords in a group

A group such as `vers,random=42,,dump` is scanned by byte offsets. A candidate ends at a comma,
at an equals sign or with the group, and stands for the keywords that it abbreviates.
-/

namespace AwkStartup
namespace Abbreviation

def comma : UInt8 := 44

def equals : UInt8 := 61

/-- An upper-case name and what it stands for. -/
structure Keyword (α : Type) where
  name : String
  code : α

/-- A byte with ASCII letters folded to upper case. -/
def upper (b : UInt8) : UInt8 :=
  if 97 ≤ b ∧ b ≤ 122 then b - 32 else b

/-- Whether a candidate is the beginning of a name, without regard to the case of the
candidate. -/
def abbreviates (candidate name : List UInt8) : Bool :=
  candidate.length ≤ name.length && (candidate.zip name).all fun (c, n) => upper c == n

/-- What a candidate stands for. Of several keywords the first one of the table counts. -/
inductive Resolution (α : Type) where
  | unknown
  | unique (code : α)
  | ambiguous (code : α) (first second : String)
  deriving DecidableEq, Repr

namespace Resolution

def code? {α : Type} : Resolution α → Option α
  | unknown => none
  | unique code | ambiguous code _ _ => some code

end Resolution

/-- The keywords that a candidate abbreviates, in the order of the table. -/
def candidates {α : Type} (table : List (Keyword α)) (candidate : List UInt8) : List (Keyword α) :=
  table.filter fun k => abbreviates candidate (Text.bytes k.name)

def resolve {α : Type} (table : List (Keyword α)) (candidate : List UInt8) : Resolution α :=
  match candidates table candidate with
  | [] => .unknown
  | [only] => .unique only.code
  | first :: second :: _ => .ambiguous first.code first.name second.name

/-- A resolved candidate: its first offset, and the offset of the byte that ended it. -/
structure Parsed (α : Type) where
  resolution : Resolution α
  start : Nat
  stop : Nat
  deriving DecidableEq, Repr

def skipCommas (text : List UInt8) (offset : Nat) : Nat :=
  offset + ((text.drop offset).takeWhile (· == comma)).length

def endsCandidate (b : UInt8) : Bool :=
  b == comma || b == equals

def candidateAt (text : List UInt8) (start : Nat) : List UInt8 :=
  (text.drop start).takeWhile fun b => !endsCandidate b

/-- The next candidate from an offset on; nothing when only commas are left. -/
def parse? {α : Type} (table : List (Keyword α)) (text : List UInt8) (offset : Nat) :
    Option (Parsed α) :=
  let start := skipCommas text offset
  if text.length ≤ start then none
  else
    let candidate := candidateAt text start
    some { resolution := resolve table candidate, start := start, stop := start + candidate.length }

/-- Whether an equals sign with a usable value stands at an offset: the value is not empty and
does not start with another equals sign. -/
def hasValue (text : List UInt8) (offset : Nat) : Bool :=
  text[offset]? == some equals &&
    match text[offset + 1]? with
    | some b => b != equals && b != comma
    | none => false

/-- The offset of the next comma or of the end; nothing when the offset is beyond the end. -/
def skipValue? (text : List UInt8) (offset : Nat) : Option Nat :=
  if text.length < offset then none
  else some (offset + ((text.drop offset).takeWhile (· != comma)).length)

/-- One candidate of a group, whether a usable value follows, and where its value ends. -/
structure Entry (α : Type) where
  parsed : Parsed α
  valued : Bool
  skippedTo : Nat
  deriving DecidableEq, Repr

/-- The candidates from an offset on, each after the value of the one before. -/
def entriesFrom {α : Type} (table : List (Keyword α)) (text : List UInt8) : Nat → Nat → List (Entry α)
  | 0, _ => []
  | fuel + 1, offset =>
    match parse? table text offset with
    | none => []
    | some p =>
      match skipValue? text p.stop with
      | none => []
      | some next => ⟨p, hasValue text p.stop, next⟩ :: entriesFrom table text fuel next

def entries {α : Type} (table : List (Keyword α)) (text : List UInt8) : List (Entry α) :=
  entriesFrom table text (text.length + 1) 0

end Abbreviation
end AwkStartup
