import AwkStartup.Proofs.CommandLine.Applying
import AwkStartup.Startup

/-!
# The separator and the name FS

The name FS is bound to a text, and the interpreter has a separator. Both are written by different
options, and they agree after every command line and every seeding, also when a command line fails.
-/

namespace AwkStartup

namespace CommandLine

def Progress.interpreter (p : Progress) (i : Interpreter) : Interpreter :=
  p.calls.foldl Interpreter.perform i

theorem Progress.interpreter_call (p : Progress) (c : Call) (i : Interpreter) :
    (p.call c).interpreter i = (p.interpreter i).perform c := by
  simp [interpreter]

theorem Progress.interpreter_remark (p : Progress) (n : Notice) (i : Interpreter) :
    (p.remark n).interpreter i = p.interpreter i := by
  simp [interpreter]

end CommandLine

variable [Libraries]

/-- FS is a scalar whose text casts to a separator. -/
def Agrees (globals : Globals) (separator : Separator) : Prop :=
  ∃ cell text, globals.find? "FS" = some (.var cell) ∧ cell.text? = some text ∧
    Separator.cast text = .ok separator

/-- A workspace and the interpreter beside it. -/
structure Setup where
  workspace : Workspace
  interpreter : Interpreter

/-- What can happen to a setup. -/
inductive Operation where
  | dispatch (policy : LongOptionPolicy) (args : List String)
  | setArgv (programName : String) (args : List String)
  | loadEnviron (entries : List String)
  deriving DecidableEq, Repr

namespace Setup

def initial (name : String) : Setup :=
  ⟨Workspace.initial, Interpreter.initial name⟩

/-- What an operation does. A command line that fails leaves what it did before. -/
def perform (features : Features) (s : Setup) : Operation → Setup
  | .dispatch policy args =>
    let progress := (CommandLine.dispatch features policy s.workspace.globals args).progress
    { workspace := { s.workspace with globals := progress.globals }
      interpreter := progress.calls.foldl Interpreter.perform s.interpreter }
  | .setArgv programName args =>
    { s with workspace := s.workspace.setArgv features programName args }
  | .loadEnviron entries => { s with workspace := s.workspace.loadEnviron features entries }

def performAll (features : Features) (s : Setup) (operations : List Operation) : Setup :=
  operations.foldl (perform features) s

end Setup

theorem agrees_initial : Agrees Globals.initial .blanks :=
  ⟨.string " ", " ", rfl, rfl, rfl⟩

theorem Agrees.bind {globals : Globals} {separator : Separator} (h : Agrees globals separator)
    {name : String} (hname : name ≠ "FS") (symbol : Symbol) :
    Agrees (globals.bind name symbol) separator := by
  obtain ⟨cell, text, hfind, htext, hcast⟩ := h
  refine ⟨cell, text, ?_, htext, hcast⟩
  rw [Globals.find?_bind, if_neg (Ne.symm hname), hfind]

theorem agrees_setScalar (globals : Globals) {cell : Cell} {text : String} {separator : Separator}
    (htext : cell.text? = some text) (hcast : Separator.cast text = .ok separator) :
    Agrees (globals.setScalar "FS" cell) separator := by
  refine ⟨cell, text, ?_, htext, hcast⟩
  rw [Globals.setScalar, Globals.find?_bind, if_pos rfl]

namespace CommandLine

theorem cast_of_castSeparator {text : String} {separator : Separator}
    (h : castSeparator text = .ok separator) : Separator.cast text = .ok separator := by
  unfold castSeparator at h
  split at h
  · rename_i cast hcast
    obtain rfl := Except.ok.inj h
    exact hcast
  · cases h

theorem apply_keeps_separator {p q : Progress} {d : Directive} (hd : d.canFail = false)
    (h : apply p d = .ok q) (i : Interpreter) :
    q.globals = p.globals ∧ (q.interpreter i).separator = (p.interpreter i).separator := by
  cases d with
  | assign text => cases hd
  | separator text => cases hd
  | sprintf n =>
    cases h
    split_ifs
    · exact ⟨rfl, rfl⟩
    · exact ⟨rfl, by rw [Progress.interpreter_call]; rfl⟩
  | ignoredLong token =>
    cases h
    split_ifs
    · exact ⟨rfl, rfl⟩
    · exact ⟨rfl, congrArg Interpreter.separator (p.interpreter_remark _ i)⟩
  | notice remark =>
    cases h
    exact ⟨rfl, congrArg Interpreter.separator (p.interpreter_remark _ i)⟩
  | version | interactive | random n | binmode n =>
    cases h
    refine ⟨rfl, ?_⟩
    rw [Progress.interpreter_call]
    rfl
  | programFile name | dump | posixSpace =>
    cases h
    exact ⟨rfl, rfl⟩

theorem agrees_apply {p q : Progress} {d : Directive} {i : Interpreter} (h : apply p d = .ok q)
    (hagrees : Agrees p.globals (p.interpreter i).separator) :
    Agrees q.globals (q.interpreter i).separator := by
  cases d with
  | assign text =>
    obtain ⟨name, raw, -, -, ⟨hname, rfl⟩ | ⟨rfl, separator, hcast, rfl⟩⟩ := assign_cases h
    · exact hagrees.bind hname _
    · rw [Progress.interpreter_call]
      exact agrees_setScalar p.globals rfl (cast_of_castSeparator hcast)
  | separator text =>
    obtain ⟨separator, hcast, rfl⟩ := setSeparator_cases h
    rw [Progress.interpreter_call]
    exact agrees_setScalar p.globals rfl (cast_of_castSeparator hcast)
  | _ =>
    obtain ⟨hglobals, hseparator⟩ := apply_keeps_separator rfl h i
    rw [hglobals, hseparator]
    exact hagrees

theorem agrees_applyAll {p : Progress} {i : Interpreter} (ds : List Directive)
    (h : Agrees p.globals (p.interpreter i).separator) :
    Agrees (applyAll p ds).1.globals ((applyAll p ds).1.interpreter i).separator := by
  induction ds generalizing p with
  | nil => exact h
  | cons d ds ih =>
    cases happly : apply p d with
    | error fault =>
      rw [applyAll_cons_error happly]
      exact h
    | ok q =>
      rw [applyAll_cons_ok happly]
      exact ih (agrees_apply happly h)

/-- A command line keeps FS and the separator together, however it ends. -/
theorem agrees_dispatch (features : Features) (policy : LongOptionPolicy) {globals : Globals}
    (args : List String) {i : Interpreter} (h : Agrees globals i.separator) :
    Agrees (dispatch features policy globals args).progress.globals
      ((dispatch features policy globals args).progress.interpreter i).separator := by
  match args with
  | [] => exact h
  | [program] => exact h
  | program :: token :: tokens =>
    rw [dispatch, Reading.run_eq_runFrom, progress_runFrom]
    exact agrees_applyAll _ h

end CommandLine

/-- A setup in which FS and the separator agree. -/
def Setup.IsConsistent (s : Setup) : Prop :=
  Agrees s.workspace.globals s.interpreter.separator

theorem Setup.IsConsistent.perform {s : Setup} (h : s.IsConsistent) (features : Features)
    (operation : Operation) : (s.perform features operation).IsConsistent := by
  cases operation with
  | dispatch policy args => exact CommandLine.agrees_dispatch features policy args h
  | setArgv programName args =>
    have hargv : Agrees (s.workspace.globals.setArray "ARGV" s.workspace.fresh)
        s.interpreter.separator :=
      Agrees.bind h (by decide) _
    rw [← Workspace.globals_seedArray features s.workspace "ARGV"
      (Workspace.argumentTable 1 args (Table.empty.insert (.ofIndex 0) (.string programName)))]
      at hargv
    exact hargv.bind (by decide) _
  | loadEnviron entries =>
    have henviron : Agrees (s.workspace.globals.setArray "ENVIRON" s.workspace.fresh)
        s.interpreter.separator :=
      Agrees.bind h (by decide) _
    rw [← Workspace.globals_seedArray features s.workspace "ENVIRON"
      (Workspace.environmentTable entries)] at henviron
    exact henviron

theorem Setup.IsConsistent.performAll {s : Setup} (h : s.IsConsistent) (features : Features)
    (operations : List Operation) : (s.performAll features operations).IsConsistent := by
  induction operations generalizing s with
  | nil => exact h
  | cons operation operations ih => exact ih (h.perform features operation)

/-- FS and the separator never drift apart: after any command lines and seedings, FS is a scalar
with a text, and the text casts to the separator of the interpreter. -/
theorem separator_agrees_with_fs (features : Features) (name : String)
    (operations : List Operation) :
    ∃ cell text,
      ((Setup.initial name).performAll features operations).workspace.globals.find? "FS" =
        some (.var cell) ∧
      cell.text? = some text ∧
      Separator.cast text =
        .ok ((Setup.initial name).performAll features operations).interpreter.separator := by
  have h : (Setup.initial name).IsConsistent := agrees_initial
  exact h.performAll features operations

end AwkStartup
