import AwkStartup.Files
import AwkStartup.Libraries
import AwkStartup.Pattern.Syntax
import AwkStartup.Toml.Document

/-!
# The libraries that the program is run with

Readers of patterns and of documents, and the directories of the XDG conventions. They describe a
fault by the head of its description only, and the size of a pattern is an estimate.
-/

namespace AwkStartup
namespace Pattern

/-- The signs that are escaped in a literal text. -/
def signs : List Char :=
  ['\\', '.', '+', '*', '?', '(', ')', '|', '[', ']', '\x7b', '\x7d', '^', '$', '#', '&', '-', '~']

def escape (text : String) : String :=
  String.ofList (text.toList.flatMap fun c => if c ∈ signs then ['\\', c] else [c])

def fault? (text : String) : Option String :=
  match verdict text.toList with
  | .accepted => none
  | .malformed => some "regex parse error:"
  | .tooLarge =>
    some ("Compiled regex exceeds size limit of " ++ toString weightLimit ++ " bytes.")

end Pattern

namespace Environment

/-- The home directory: that of the environment when it has one, and else that of the account. -/
def home? (process : Environment) (account : Option String) : Option String :=
  match process.var? "HOME" with
  | none | some "" => account
  | some home => some home

/-- The directory for configurations: an absolute `XDG_CONFIG_HOME`, or one below the home
directory. -/
def configDirectory? (process : Environment) (account : Option String) : Option String :=
  let belowHome := (process.home? account).map fun home => joinPath home ".config"
  match process.var? "XDG_CONFIG_HOME" with
  | some base => if base.toList.head? = some '/' then some base else belowHome
  | none => belowHome

end Environment

namespace Toml

def document (text : String) : Except String Value :=
  match read? text with
  | some document => .ok document
  | none => .error "TOML parse error"

end Toml

namespace Libraries

/-- The libraries for a user whose account has a home directory or none. -/
@[reducible] def standard (accountHome : Option String) : Libraries where
  patternFault? := Pattern.fault?
  escape := Pattern.escape
  readDocument := Toml.document
  configDirectory? process := process.configDirectory? accountHome

section Standard

variable {accountHome : Option String} {text : String}

theorem readDocument_of_some {value : Toml.Value} (h : Toml.read? text = some value) :
    (standard accountHome).readDocument text = .ok value := by
  change Toml.document text = _
  rw [Toml.document, h]

theorem readDocument_of_none (h : Toml.read? text = none) :
    (standard accountHome).readDocument text = .error "TOML parse error" := by
  change Toml.document text = _
  rw [Toml.document, h]

end Standard

-- Runs on fixed inputs are about these libraries; elsewhere they are given as a parameter.
instance (priority := low) : Libraries := standard none

end Libraries
end AwkStartup
