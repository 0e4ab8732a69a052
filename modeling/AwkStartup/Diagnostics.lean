/-!
# Recorded remarks

Remarks on a start are recorded in order, and their lines begin with the name of the program.
-/

namespace AwkStartup

structure Diagnostics where
  name : String
  messages : List String
  deriving DecidableEq, Repr

namespace Diagnostics

def quiet (name : String) : Diagnostics :=
  ⟨name, []⟩

def warn (d : Diagnostics) (message : String) : Diagnostics :=
  { d with messages := d.messages ++ [message] }

def warnAll (d : Diagnostics) (messages : List String) : Diagnostics :=
  { d with messages := d.messages ++ messages }

def isEmpty (d : Diagnostics) : Bool :=
  d.messages.isEmpty

def line (name message : String) : String :=
  name ++ ": " ++ message ++ "\n"

end Diagnostics
end AwkStartup
