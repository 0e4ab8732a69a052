import AwkStartup.CommandLine.Program
import AwkStartup.CommandLine.Reading
import AwkStartup.Globals
import AwkStartup.Text.Escape

/-!
# Applying a command line

Directives are applied one after the other, and the first one that fails ends the start without
having changed anything. When all have been applied, the way that reading ended decides what is
launched.
-/

namespace AwkStartup
namespace CommandLine

/-- What applying directives changes: the global names, and the effects, program files and
switches so far. -/
structure Progress where
  globals : Globals
  effects : List Effect
  files : ProgramFiles
  flags : Flags
  longReported : Bool

namespace Progress

def start (globals : Globals) : Progress :=
  { globals := globals
    effects := []
    files := ProgramFiles.empty
    flags := Flags.none
    longReported := false }

def calls (p : Progress) : List Call :=
  p.effects.filterMap Effect.call?

def notices (p : Progress) : List Notice :=
  p.effects.filterMap Effect.notice?

def messages (p : Progress) : List String :=
  p.notices.map Notice.message

def call (p : Progress) (c : Call) : Progress :=
  { p with effects := p.effects ++ [.call c] }

def remark (p : Progress) (n : Notice) : Progress :=
  { p with effects := p.effects ++ [.remark n] }

@[simp] theorem calls_call (p : Progress) (c : Call) : (p.call c).calls = p.calls ++ [c] := by
  simp [calls, call, Effect.call?]

@[simp] theorem calls_remark (p : Progress) (n : Notice) : (p.remark n).calls = p.calls := by
  simp [calls, remark, Effect.call?]

@[simp] theorem notices_call (p : Progress) (c : Call) : (p.call c).notices = p.notices := by
  simp [notices, call, Effect.notice?]

@[simp] theorem notices_remark (p : Progress) (n : Notice) :
    (p.remark n).notices = p.notices ++ [n] := by
  simp [notices, remark, Effect.notice?]

@[simp] theorem messages_call (p : Progress) (c : Call) : (p.call c).messages = p.messages := by
  simp [messages]

@[simp] theorem messages_remark (p : Progress) (n : Notice) :
    (p.remark n).messages = p.messages ++ [n.message] := by
  simp [messages]

end Progress

def isNameStart (c : Char) : Bool :=
  ('a' ≤ c && c ≤ 'z') || ('A' ≤ c && c ≤ 'Z') || c == '_'

def isNameRest (c : Char) : Bool :=
  isNameStart c || Leading.isDigit c

/-- Whether a text is the name of a variable: ASCII letters, digits and underscores, and no digit
first. -/
def isVariableName (name : String) : Bool :=
  match name.toList with
  | [] => false
  | c :: s => isNameStart c && s.all isNameRest

/-- The name and the raw value of an assignment. -/
def assignment? (text : String) : Option (String × String) :=
  match Text.nameValue? text with
  | some (name, raw) => if isVariableName name then some (name, raw) else none
  | none => none

/-- Whether a name may be assigned to: it is unbound or a scalar. -/
def isAssignable (globals : Globals) (name : String) : Bool :=
  match globals.find? name with
  | none | some (.var _) => true
  | some _ => false

def castSeparator [Libraries] (text : String) : Except StartupError Separator :=
  match Separator.cast text with
  | .ok separator => .ok separator
  | .error description => .error (.fieldSeparator text description)

/-- Binds a variable; the name FS also sets the separator. -/
def assign [Libraries] (p : Progress) (text : String) : Except StartupError Progress :=
  match assignment? text with
  | none => .error (.improperAssignment text)
  | some (name, raw) =>
    if !isAssignable p.globals name then .error (.assignmentClash name)
    else
      let value := Text.unescape raw
      let bound := { p with globals := p.globals.setScalar name (.maybeNumeric value) }
      if name = "FS" then
        match castSeparator value with
        | .error fault => .error fault
        | .ok separator => .ok (bound.call (.separator separator))
      else .ok bound

/-- Sets the separator and binds FS to its text. -/
def setSeparator [Libraries] (p : Progress) (text : String) : Except StartupError Progress :=
  let value := Text.unescape text
  match castSeparator value with
  | .error fault => .error fault
  | .ok separator =>
    .ok ({ p with globals := p.globals.setScalar "FS" (.string value) }.call (.separator separator))

/-- Applies one directive. Only the first skipped long option is reported, and a negative size
is ignored. -/
def apply [Libraries] (p : Progress) : Directive → Except StartupError Progress
  | .assign text => assign p text
  | .separator text => setSeparator p text
  | .programFile name => .ok { p with files := p.files.push name }
  | .version => .ok (p.call .version)
  | .dump => .ok { p with flags := { p.flags with dumpCode := true } }
  | .interactive => .ok ({ p with flags := { p.flags with interactive := true } }.call .interactive)
  | .posixSpace => .ok { p with flags := { p.flags with posixSpace := true } }
  | .random n => .ok (p.call (.seed (.ofInt n)))
  | .sprintf n => .ok (if n < 0 then p else p.call (.sprintf n.toNat))
  | .binmode n => .ok (p.call (.binmode (wrap32 n)))
  | .notice notice => .ok (p.remark notice)
  | .ignoredLong token =>
    .ok (if p.longReported then p else { p.remark (.ignoredOption token) with longReported := true })

/-- Applies directives until one fails; also what had been done by then. -/
def applyAll [Libraries] (p : Progress) : List Directive → Progress × Option StartupError
  | [] => (p, none)
  | d :: ds =>
    match apply p d with
    | .error fault => (p, some fault)
    | .ok q => applyAll q ds

def runFiles (p : Progress) (index : Nat) : Launch :=
  .run ⟨.files p.files, index, p.flags⟩

/-- Without program files the next token is the program. -/
def runNext (p : Progress) (index : Nat) : List String → Launch
  | [] => .noProgram
  | text :: _ => .run ⟨.inline text, index + 1, p.flags⟩

/-- Runs the one program file of `exec`: the glued one, or the next token. When no token
follows there is no program, not even a glued one. -/
def runExec (p : Progress) (glued : Option String) (index : Nat) (rest : List String) :
    Except StartupError Launch :=
  if !p.files.isEmpty then .error .execWithProgramFile
  else
    match rest, glued with
    | [], _ => .ok .noProgram
    | _ :: _, some name => .ok (runFiles { p with files := p.files.push name } index)
    | name :: _, none => .ok (runFiles { p with files := p.files.push name } (index + 1))

/-- What is launched after all directives. A lone hyphen is an argument of program files and no
program by itself. -/
def conclude (p : Progress) : Ending → Except StartupError Launch
  | .operands index rest | .terminated index rest =>
    .ok (if p.files.isEmpty then runNext p index rest else runFiles p index)
  | .dash index _ => .ok (if p.files.isEmpty then .noProgram else runFiles p index)
  | .exec glued index rest => runExec p glued index rest
  | .usage => .ok .usage
  | .refused fault => .error fault

/-- How a command line ended, and what it did. -/
structure Dispatched where
  outcome : Except StartupError Launch
  progress : Progress

def Reading.directives (keywords : Keywords) (reading : Reading) : List Directive :=
  reading.items.flatMap (Item.directives keywords)

def Reading.run [Libraries] (keywords : Keywords) (globals : Globals) (reading : Reading) : Dispatched :=
  match applyAll (Progress.start globals) (reading.directives keywords) with
  | (p, some fault) => ⟨.error fault, p⟩
  | (p, none) => ⟨conclude p reading.ending, p⟩

/-- Processes a command line. The first token is the name of the program; without another token
there is only the usage to show. -/
def dispatch [Libraries] (features : Features) (policy : LongOptionPolicy) (globals : Globals)
    (args : List String) : Dispatched :=
  match args with
  | _ :: token :: tokens =>
    let keywords := ImplementationOption.table features
    (read keywords policy (token :: tokens)).run keywords globals
  | _ => ⟨.ok .usage, Progress.start globals⟩

end CommandLine
end AwkStartup
