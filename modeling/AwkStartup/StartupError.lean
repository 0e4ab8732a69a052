import AwkStartup.CommandLine.ImplementationOption
import AwkStartup.Files
import AwkStartup.Text.Quoted

/-!
# Faults that end a start

Each fault is a cause with what its message quotes, and with what a library says of it. Faults of
configuration files are only warnings where a start falls back to the environment.
-/

namespace AwkStartup

/-- Why a configuration file cannot be used. -/
inductive ConfigFault where
  | unreadable (cause : SystemError)
  | malformed (description : String)
  deriving DecidableEq, Repr

/-- Why a start ends. No command line leads to an offset that is no boundary of its text. -/
inductive StartupError where
  | missingArgument (option : String)
  | notAnOption (token : String)
  | unsupportedOption (token : String)
  | improperAssignment (text : String)
  | assignmentClash (name : String)
  | execWithProgramFile
  | missingValue (option : ImplementationOption)
  | fieldSeparator (text description : String)
  | programFile (name : String) (cause : SystemError)
  | io (description : String)
  | config (fault : ConfigFault)
  | badOffset (offset : Nat)
  deriving DecidableEq, Repr

namespace ConfigFault

def message : ConfigFault → String
  | unreadable cause => "Failed to read config: " ++ cause.message
  | malformed description => "Invalid config TOML: " ++ description

end ConfigFault

namespace StartupError

def message : StartupError → String
  | missingArgument option => "option " ++ option ++ " lacks argument"
  | notAnOption token => "not an option: " ++ token
  | unsupportedOption token => "not an option: " ++ token ++ " (recognized but unsupported)"
  | improperAssignment text => "improper assignment: -v " ++ text
  | assignmentClash name => "cannot command line assign to " ++ name ++ "\n\ttype clash or keyword"
  | execWithProgramFile => "-W exec is incompatible with -f"
  | missingValue option => "missing value for -W " ++ option.spelling
  | fieldSeparator text description => "bad field separator " ++ Text.quote text ++ ": " ++ description
  | programFile name cause => "couldn't open file " ++ name ++ ": " ++ cause.message
  | io description => "IO error: " ++ description
  | config fault => "Config error: " ++ fault.message
  | badOffset offset => "offset " ++ toString offset ++ " is not a character boundary"

end StartupError
end AwkStartup
