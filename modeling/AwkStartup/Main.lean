import AwkStartup.Execution
import AwkStartup.StandardLibraries

/-!
# The command

The outer layer of the program: it gathers what an execution reads and writes what it leaves.
-/

namespace AwkStartup
namespace Main

def look (path : String) : IO (Option Node) := do
  try
    let content ← IO.FS.readBinFile path
    return some (.file content.toList)
  catch e =>
    match e with
    | .inappropriateType .. => return some .directory
    | .permissionDenied .. => return some (.unreadable .permissionDenied)
    | _ => return none

/-- The paths that lead to a path. -/
def leading (path : String) : List String :=
  let components := pathComponents path
  (List.range components.length).map fun n => "/".intercalate (components.take (n + 1))

/-- A tree of what stands under paths and on the way to them. -/
def snapshot (working : String) (paths : List String) : IO Files := do
  let mut entries : List (String × Node) := []
  for path in paths.flatMap leading do
    match ← look path with
    | some node => entries := (path, node) :: entries
    | none => pure ()
  return Files.ofPaths (Files.locate [] working) entries

def environment : IO (List String) := do
  let content ← IO.FS.readBinFile "/proc/self/environ"
  let entries := content.toList.splitOn 0
  return entries.filterMap fun entry => if entry = [] then none else Text.ofBytes? entry

/-- The lines of a text, each cut at a sign. -/
def table (sign : Char) (text : String) : List (List String) :=
  (text.toList.splitOn '\n').map fun line => (line.splitOn sign).map String.ofList

/-- The home directory of the user of a process, in a list of accounts. -/
def homeIn? (status accounts : String) : Option String := do
  let user ← (table '\t' status).findSome? fun fields =>
    if fields[0]? = some "Uid:" then fields[1]? else none
  let account ← (table ':' accounts).find? fun fields => fields[2]? = some user
  let home ← account[5]?
  if home = "" then none else some home

/-- The home directory of the account that runs the program. -/
def accountHome : IO (Option String) := do
  try
    return homeIn? (← IO.FS.readFile "/proc/self/status") (← IO.FS.readFile "/etc/passwd")
  catch _ => return none

/-- All bytes that are left in a stream. -/
partial def drain (stream : IO.FS.Stream) (taken : List UInt8) : IO (List UInt8) := do
  let chunk ← stream.read 65536
  if chunk.isEmpty then return taken else drain stream (taken ++ chunk.toList)

/-- Writes a text, and whether that worked. -/
def deliver (stream : IO.FS.Stream) (text : String) : IO Bool := do
  try
    unless text.isEmpty do
      stream.putStr text
      stream.flush
    return true
  catch _ => return false

/-- Writes what an execution leaves. When an output turns out to be full, the execution is that
with a full output. -/
def leave [Libraries] (features : Features) (s : Surroundings) : IO UInt32 := do
  let trace := Execution.run features s
  let outputTaken ← deliver (← IO.getStdout) trace.output
  let s := { s with fullOutput := !outputTaken }
  let errorTaken ← deliver (← IO.getStderr) (Execution.run features s).error
  let s := { s with fullError := !errorTaken }
  return (Execution.run features s).exitCode.toUInt32

def run (args : List String) : IO UInt32 := do
  let features := Features.plain
  let _ : Libraries := .standard (← accountHome)
  let path ← IO.appPath
  let working := (← IO.currentDir).toString
  let entries ← environment
  let config := Config.path (Environment.ofEntries entries) (Environment.ofEntries entries)
  let s : Surroundings :=
    { args := path.toString :: args
      entries := entries
      files := ← snapshot working [config]
      input := []
      fullOutput := false
      fullError := false }
  let names := Execution.programFiles features s
  let files ← snapshot working (config :: names.filter fun name => !Interpreter.isStandardInput name)
  let input ← if names.any Interpreter.isStandardInput then drain (← IO.getStdin) [] else pure []
  leave features { s with files := files, input := input }

end Main
end AwkStartup

def main (args : List String) : IO UInt32 :=
  AwkStartup.Main.run args
