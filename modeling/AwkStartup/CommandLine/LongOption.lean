/-!
# Long options

A token of two hyphens and more is a long option. A policy, chosen once, decides what becomes
of long options.
-/

namespace AwkStartup

/-- What is done with one long option. -/
inductive GateDecision where
  | reject
  | warn
  | skip
  | dispatch
  deriving DecidableEq, Repr

/-- How long options are treated. -/
inductive LongOptionPolicy where
  | reject
  | warn
  | ignore
  | allow
  deriving DecidableEq, Repr

namespace LongOptionPolicy

/-- The policy of a setting. Only its first character counts, and anything unknown rejects. -/
def ofSetting (setting : Option String) : LongOptionPolicy :=
  match setting.bind fun s => s.toList.head? with
  | some 'w' => warn
  | some 'i' => ignore
  | some 'a' => allow
  | _ => reject

def decide : LongOptionPolicy → GateDecision
  | reject => .reject
  | warn => .warn
  | ignore => .skip
  | allow => .dispatch

def name : LongOptionPolicy → String
  | reject => "error"
  | warn => "warn"
  | ignore => "ignore"
  | allow => "allow"

end LongOptionPolicy

/-- Whether a token is a long option. -/
def isLongOption (token : String) : Bool :=
  match token.toList with
  | '-' :: '-' :: _ :: _ => true
  | _ => false

end AwkStartup
