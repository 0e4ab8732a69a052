import AwkStartup.Text.Split

/-!
# The environment of a start

The name that messages begin with, and the entries of the process environment in order.
-/

namespace AwkStartup

structure Environment where
  programName : String
  entries : List String
  deriving DecidableEq, Repr

namespace Environment

def defaultName : String := "rawk"

def ofEntries (entries : List String) : Environment :=
  ⟨defaultName, entries⟩

def valueIn? (name : String) : List String → Option String
  | [] => none
  | entry :: entries =>
    match Text.nameValue? entry with
    | some (key, value) => if key = name then some value else valueIn? name entries
    | none => valueIn? name entries

/-- The value of a variable; the first entry of its name counts. -/
def var? (env : Environment) (name : String) : Option String :=
  valueIn? name env.entries

def withProgramPath (env : Environment) (path : String) : Environment :=
  { env with programName := Text.basename path }

end Environment
end AwkStartup
