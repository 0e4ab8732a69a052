import AwkStartup.Libraries

/-!
# Field separators

The text of a separator is cast to the way it splits: into characters, at runs of blanks, or at
the matches of a pattern. A single sign that has a meaning in patterns is taken literally.
-/

namespace AwkStartup

/-- How records are split into fields. -/
inductive Separator where
  | characters
  | blanks
  | pattern (text : String)
  deriving DecidableEq, Repr

namespace Separator

/-- The signs that a separator of one character takes literally. -/
def literalSigns : List Char :=
  ['^', '$', '.', '[', ']', '|', '(', ')', '*', '+', '?']

/-- The pattern of a separator that is neither empty nor a space. -/
def patternText [Libraries] (text : String) : String :=
  match text.toList with
  | [c] => if c ∈ literalSigns then Libraries.escape text else text
  | _ => text

/-- The separator of a text, or what is wrong with its pattern. -/
def cast [Libraries] (text : String) : Except String Separator :=
  match text.toList with
  | [] => .ok characters
  | [' '] => .ok blanks
  | _ =>
    match Libraries.patternFault? (patternText text) with
    | none => .ok (pattern (patternText text))
    | some description => .error description

def pattern? : Separator → Option String
  | pattern text => some text
  | _ => none

end Separator
end AwkStartup
