import AwkStartup.CommandLine.LongOption
import AwkStartup.Libraries
import AwkStartup.StartupError

/-!
# Configuration

Settings come from `config.toml` in the configuration directory; variables of the environment
override them.
-/

namespace AwkStartup

structure Config where
  directory : String
  longOptions : LongOptionPolicy
  binmode : Option Int
  deriving DecidableEq, Repr

namespace Config

/-- The directory without `RAWK_CONFIG_DIR`. -/
def defaultDirectory [Libraries] (process : Environment) : String :=
  match Libraries.configDirectory? process with
  | some base => joinPath base "rawk"
  | none => ".rawk"

def default (directory : String) : Config :=
  ⟨directory, .reject, none⟩

def file (config : Config) : String :=
  joinPath config.directory "config.toml"

/-- The binmode of a document: an integer of 32 bits. -/
def binmodeOf? (n : Int) : Option Int :=
  if -0x80000000 ≤ n ∧ n < 0x80000000 then some n else none

/-- The settings of a document, under its key `options`. -/
def ofDocument (features : Features) (directory : String) (document : Toml.Value) : Config :=
  let option? := fun key => (document.get? "options").bind fun options => options.get? key
  { directory := directory
    longOptions :=
      match (option? "long_options").bind Toml.Value.string? with
      | some setting => .ofSetting (some setting)
      | none => .reject
    binmode :=
      if features.binmode then ((option? "binmode").bind Toml.Value.integer?).bind binmodeOf?
      else none }

/-- The settings of the file in a directory; a missing file leaves the defaults. -/
def ofFile [Libraries] (features : Features) (files : Files) (directory : String) :
    Except StartupError Config :=
  let path := (default directory).file
  if files.contains path then
    match files.readText path with
    | .error cause => .error (.config (.unreadable cause))
    | .ok content =>
      match Libraries.readDocument content with
      | .ok document => .ok (ofDocument features directory document)
      | .error description => .error (.config (.malformed description))
  else .ok (default directory)

def applyEnvironment (features : Features) (env : Environment) (config : Config) : Config :=
  { config with
    longOptions :=
      match env.var? "MAWK_LONG_OPTIONS" with
      | some setting => .ofSetting (some setting)
      | none => config.longOptions
    binmode :=
      if features.binmode then
        match env.var? "MAWKBINMODE" with
        | some text => (Leading.integer? text).map wrap32
        | none => config.binmode
      else config.binmode }

def ofEnvironment [Libraries] (features : Features) (process env : Environment) : Config :=
  applyEnvironment features env (default (defaultDirectory process))

def directoryOf [Libraries] (process env : Environment) : String :=
  match env.var? "RAWK_CONFIG_DIR" with
  | some directory => if directory = "" then defaultDirectory process else directory
  | none => defaultDirectory process

def path [Libraries] (process env : Environment) : String :=
  joinPath (directoryOf process env) "config.toml"

/-- The settings of the configuration file and the environment. -/
def load [Libraries] (features : Features) (files : Files) (process env : Environment) :
    Except StartupError Config :=
  (ofFile features files (directoryOf process env)).map (applyEnvironment features env)

end Config
end AwkStartup
