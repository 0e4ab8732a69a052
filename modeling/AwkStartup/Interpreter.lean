import AwkStartup.CommandLine.Directive
import AwkStartup.CommandLine.Help
import AwkStartup.CommandLine.Program
import AwkStartup.StartupError

/-!
# The interpreter during a start

Options set up the random numbers, the format buffer, the terminal mode and the separator.
The program is loaded last, and all of it or nothing.
-/

namespace AwkStartup

/-- A piece of program text; text of the command line has no origin. -/
structure ProgramText where
  origin : Option String
  text : String
  deriving DecidableEq, Repr

/-- What a start changes in the interpreter. -/
structure Interpreter where
  name : String
  seed : Option Binary64
  formatBuffer : Nat
  interactive : Bool
  binmode : Int
  separator : Separator
  program : List ProgramText
  output : String
  deriving DecidableEq, Repr

namespace Interpreter

def formatBufferLimit : Nat := 8192

def initial (name : String) : Interpreter :=
  { name := name
    seed := none
    formatBuffer := formatBufferLimit
    interactive := false
    binmode := 0
    separator := .blanks
    program := []
    output := "" }

/-- Performs a call. The format buffer only grows. -/
def perform (i : Interpreter) : Call → Interpreter
  | .version => { i with output := i.output ++ Help.versionText i.name i.formatBuffer }
  | .seed x => { i with seed := some x }
  | .sprintf size => { i with formatBuffer := max i.formatBuffer size }
  | .interactive => { i with interactive := true }
  | .binmode mode => { i with binmode := mode }
  | .separator separator => { i with separator := separator }

def isStandardInput (name : String) : Bool :=
  name == "-" || name == "/dev/stdin"

/-- The text of a program file, and what is left of standard input. Whoever reads standard input
takes all of it. -/
def readFile (files : Files) (input : List UInt8) (name : String) :
    Except SystemError String × List UInt8 :=
  if isStandardInput name then
    match Text.ofBytes? input with
    | some text => (.ok text, [])
    | none => (.error .notUtf8, [])
  else (files.readText name, input)

/-- The texts of program files, or the fault of the first one that cannot be read. -/
def readFiles (files : Files) : List UInt8 → List String →
    Except StartupError (List ProgramText) × List UInt8
  | input, [] => (.ok [], input)
  | input, name :: names =>
    match readFile files input name with
    | (.error cause, input) => (.error (.programFile name cause), input)
    | (.ok text, input) =>
      match readFiles files input names with
      | (.error fault, input) => (.error fault, input)
      | (.ok texts, input) => (.ok (⟨some name, text⟩ :: texts), input)

def readSource (files : Files) (input : List UInt8) :
    ProgramSource → Except StartupError (List ProgramText) × List UInt8
  | .inline text => (.ok [⟨none, text⟩], input)
  | .files source => readFiles files input source.names

end Interpreter
end AwkStartup
