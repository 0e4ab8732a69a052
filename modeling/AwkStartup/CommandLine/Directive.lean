import AwkStartup.Number.Binary64
import AwkStartup.Separator

/-!
# What options ask for

Options are read into directives. Applying a directive may bind a global name, leave a remark, or
call on the interpreter. A directive is still raw text where applying it can fail.
-/

namespace AwkStartup

/-- A remark that does not end a start. -/
inductive Notice where
  | ambiguous (first second : String)
  | vacuous (group : String)
  | unexpectedValue (group : String)
  | ignoredOption (token : String)
  deriving DecidableEq, Repr

namespace Notice

/-- The message of a remark. Remarks on a group quote it from their candidate on. -/
def message : Notice → String
  | ambiguous first second => "? ambiguous -W value: " ++ first ++ " vs " ++ second
  | vacuous group => "vacuous option: -W " ++ group
  | unexpectedValue group => "unexpected option value " ++ group
  | ignoredOption token => "ignored option: " ++ token

end Notice

/-- A call on the interpreter. -/
inductive Call where
  | version
  | seed (x : Binary64)
  | sprintf (size : Nat)
  | interactive
  | binmode (mode : Int)
  | separator (separator : Separator)
  deriving DecidableEq, Repr

/-- What applying a directive does outside the global names. -/
inductive Effect where
  | call (call : Call)
  | remark (notice : Notice)
  deriving DecidableEq, Repr

namespace Effect

def call? : Effect → Option Call
  | call c => some c
  | remark _ => none

def notice? : Effect → Option Notice
  | call _ => none
  | remark n => some n

end Effect

/-- What one option asks for. -/
inductive Directive where
  | assign (text : String)
  | separator (text : String)
  | programFile (name : String)
  | version
  | dump
  | interactive
  | posixSpace
  | random (n : Int)
  | sprintf (n : Int)
  | binmode (n : Int)
  | notice (notice : Notice)
  | ignoredLong (token : String)
  deriving DecidableEq, Repr

end AwkStartup
