/-!
# Exit status

A start succeeds, also when there is no program to run, or it ends with a fatal fault.
-/

namespace AwkStartup

inductive ExitStatus where
  | success
  | error
  deriving DecidableEq, Repr

namespace ExitStatus

/-- Zero means success and everything else an error. -/
def ofCode (code : Int) : ExitStatus :=
  if code = 0 then success else error

def code : ExitStatus → Nat
  | success => 0
  | error => 2

end ExitStatus
end AwkStartup
