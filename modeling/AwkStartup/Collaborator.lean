import AwkStartup.Interpreter

/-!
# Whom a start calls

A start makes calls and hands over the program, in this order. It can be run against the
interpreter, or against a recorder of what it is asked for.
-/

namespace AwkStartup

/-- Someone with a state who takes calls and programs. -/
structure Collaborator (σ : Type) where
  perform : Call → σ → σ
  scan : ProgramSource → σ → σ × Option StartupError

namespace Collaborator

def performAll {σ : Type} (c : Collaborator σ) (calls : List Call) (state : σ) : σ :=
  calls.foldl (fun s call => c.perform call s) state

@[simp] theorem performAll_nil {σ : Type} (c : Collaborator σ) (state : σ) :
    c.performAll [] state = state := rfl

end Collaborator

/-- An interpreter and what is left of its standard input. -/
structure Host where
  interpreter : Interpreter
  input : List UInt8
  deriving DecidableEq, Repr

namespace Host

def initial (name : String) (input : List UInt8) : Host :=
  ⟨Interpreter.initial name, input⟩

def perform (call : Call) (h : Host) : Host :=
  { h with interpreter := h.interpreter.perform call }

/-- Loads a program. When that fails, the interpreter keeps the one it has. -/
def scan (files : Files) (source : ProgramSource) (h : Host) : Host × Option StartupError :=
  match Interpreter.readSource files h.input source with
  | (.ok program, input) => (⟨{ h.interpreter with program := program }, input⟩, none)
  | (.error fault, input) => (⟨h.interpreter, input⟩, some fault)

def collaborator (files : Files) : Collaborator Host :=
  ⟨perform, scan files⟩

end Host

/-- What a recorder was asked for. -/
inductive Event where
  | call (call : Call)
  | scan (source : ProgramSource)
  deriving DecidableEq, Repr

namespace Event

/-- A recorder that takes a program, or refuses it with a fault. -/
def recorder (refusal : Option StartupError) : Collaborator (List Event) :=
  ⟨fun c events => events ++ [.call c], fun source events => (events ++ [.scan source], refusal)⟩

end Event
end AwkStartup
