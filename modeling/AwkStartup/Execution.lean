import AwkStartup.Diagnostics
import AwkStartup.ExitStatus
import AwkStartup.Listing
import AwkStartup.Startup

/-!
# One execution of the program

An execution reads its tokens, its environment, files and standard input, and leaves two output
texts and an exit code. Every message goes to standard error, and only a listing and the version
go to standard output.
-/

namespace AwkStartup

/-- What an execution finds. Its first token is the path of the program. A full output takes no
text. -/
structure Surroundings where
  args : List String
  entries : List String
  files : Files
  input : List UInt8
  fullOutput : Bool
  fullError : Bool

/-- What an execution leaves. -/
structure Trace where
  exitCode : Nat
  output : String
  error : String
  deriving DecidableEq, Repr

namespace Surroundings

def environment (s : Surroundings) : Environment :=
  match s.args with
  | [] => Environment.ofEntries s.entries
  | path :: _ => (Environment.ofEntries s.entries).withProgramPath path

/-- The configuration, and the fault of a configuration file that cannot be used. -/
def config [Libraries] (features : Features) (s : Surroundings) : Config × Option StartupError :=
  let process := Environment.ofEntries s.entries
  match Config.load features s.files process s.environment with
  | .ok config => (config, none)
  | .error fault => (Config.ofEnvironment features process s.environment, some fault)

def report [Libraries] (features : Features) (s : Surroundings) : Startup.Report Host :=
  let env := s.environment
  Startup.run features (Host.collaborator s.files) s.args env (s.config features).1
    (Host.initial env.programName s.input)

end Surroundings

namespace Execution

/-- What follows a start: the status, the listing, the message of a fault, and the usage. -/
structure Closing where
  status : ExitStatus
  listing : String
  fault : List String
  usage : String
  deriving DecidableEq, Repr

/-- What follows a start. A listing that cannot be written is a fault. -/
def closing (features : Features) (fullOutput : Bool) (name : String)
    (report : Startup.Report Host) : Closing :=
  match report.outcome with
  | .error fault => ⟨.error, "", [Diagnostics.line name fault.message], ""⟩
  | .ok .noProgram => ⟨.success, "", [], ""⟩
  | .ok .usage => ⟨.success, "", [], Help.usageText features⟩
  | .ok (.ready session) =>
    if session.invocation.flags.dumpCode then
      if fullOutput then ⟨.error, "", [Diagnostics.line name SystemError.noSpace.message], ""⟩
      else ⟨.success, Listing.write report.state.interpreter.program session.workspace, [], ""⟩
    else ⟨.success, "", [], ""⟩

/-- The text that an output takes. -/
def taken (full : Bool) (text : String) : String :=
  if full then "" else text

/-- The lines of the remarks before the closing: on the configuration file first. -/
def remarks (name : String) (configFault : Option StartupError) (notices : List Notice) :
    List String :=
  (configFault.map fun fault => Diagnostics.line name ("warning: " ++ fault.message)).toList ++
    notices.map fun notice => Diagnostics.line name notice.message

/-- The exit code of an execution that broke off because a message could not be written. It is that
of a build whose panics unwind; one whose panics abort is ended by a signal. -/
def brokenOffCode : Nat := 101

/-- What had been written to standard output before the first message. -/
def outputBeforeMessages (name : String) (configFault : Option StartupError)
    (effects : List Effect) : String :=
  match configFault with
  | some _ => ""
  | none =>
    let calls := (effects.takeWhile fun e => e.call?.isSome).filterMap Effect.call?
    (calls.foldl Interpreter.perform (Interpreter.initial name)).output

/-- One execution. -/
def run [Libraries] (features : Features) (s : Surroundings) : Trace :=
  let name := s.environment.programName
  let configFault := (s.config features).2
  let report := s.report features
  let remarks := remarks name configFault report.notices
  let closing := closing features s.fullOutput name report
  let messages := remarks ++ closing.fault
  if s.fullError ∧ messages ≠ [] then
    { exitCode := brokenOffCode
      output := taken s.fullOutput (outputBeforeMessages name configFault report.effects)
      error := "" }
  else
    { exitCode := closing.status.code
      output := taken s.fullOutput (report.state.interpreter.output ++ closing.listing)
      error := taken s.fullError (String.join messages ++ closing.usage) }

def programFiles [Libraries] (features : Features) (s : Surroundings) : List String :=
  let config := (s.config features).1
  match (CommandLine.dispatch features config.longOptions Globals.initial s.args).outcome with
  | .ok (.run ⟨.files source, _, _⟩) => source.names
  | _ => []

end Execution
end AwkStartup
