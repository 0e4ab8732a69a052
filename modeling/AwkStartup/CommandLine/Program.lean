/-!
# What a command line asks for

A program comes from files, in the order of the command line, or from text on the command line
itself. The tokens after it become arguments.
-/

namespace AwkStartup

/-- Names of program files, in order. -/
structure ProgramFiles where
  names : List String
  deriving DecidableEq, Repr

namespace ProgramFiles

def empty : ProgramFiles := ⟨[]⟩

def push (files : ProgramFiles) (name : String) : ProgramFiles :=
  ⟨files.names ++ [name]⟩

def primary? (files : ProgramFiles) : Option String :=
  files.names.head?

def rest (files : ProgramFiles) : List String :=
  files.names.tail

def size (files : ProgramFiles) : Nat :=
  files.names.length

def isEmpty (files : ProgramFiles) : Bool :=
  files.names.isEmpty

@[simp] theorem names_push (files : ProgramFiles) (name : String) :
    (files.push name).names = files.names ++ [name] := rfl

end ProgramFiles

/-- Where the program text comes from. -/
inductive ProgramSource where
  | files (files : ProgramFiles)
  | inline (text : String)
  deriving DecidableEq, Repr

/-- Switches that the scanner and the executor consult later. -/
structure Flags where
  dumpCode : Bool
  interactive : Bool
  posixSpace : Bool
  deriving DecidableEq, Repr

namespace Flags

def none : Flags := ⟨false, false, false⟩

end Flags

/-- A program, the index of the first token after it, and the switches. -/
structure Invocation where
  program : ProgramSource
  argsStart : Nat
  flags : Flags
  deriving DecidableEq, Repr

namespace Invocation

/-- The tokens after the program. -/
def arguments (invocation : Invocation) (args : List String) : List String :=
  args.drop (min invocation.argsStart args.length)

end Invocation

/-- What a command line without faults asks for. -/
inductive Launch where
  | run (invocation : Invocation)
  | noProgram
  | usage
  deriving DecidableEq, Repr

end AwkStartup
