import AwkStartup.Value.Table

/-!
# Global names

Every global name is bound to a keyword, a builtin function, a scalar variable or an array.
Arrays are shared: a binding holds the identity of an array and not its elements.
-/

namespace AwkStartup

/-- The identity of a shared array. -/
abbrev ArrayId := Nat

/-- What a global name is bound to. -/
inductive Symbol where
  | keyword
  | builtin
  | var (cell : Cell)
  | array (id : ArrayId)
  deriving DecidableEq, Repr

/-- The bindings of all global names. -/
structure Globals where
  find? : String → Option Symbol

namespace Globals

@[ext] theorem ext {g h : Globals} (same : ∀ name, g.find? name = h.find? name) : g = h := by
  cases g
  cases h
  congr
  exact funext same

/-- Binds a name, in place of what it was bound to. -/
def bind (g : Globals) (name : String) (symbol : Symbol) : Globals :=
  ⟨fun n => if n = name then some symbol else g.find? n⟩

@[simp] theorem find?_bind (g : Globals) (name n : String) (symbol : Symbol) :
    (g.bind name symbol).find? n = if n = name then some symbol else g.find? n := rfl

def contains (g : Globals) (name : String) : Bool :=
  (g.find? name).isSome

def scalar? (g : Globals) (name : String) : Option Cell :=
  match g.find? name with
  | some (.var cell) => some cell
  | _ => none

def array? (g : Globals) (name : String) : Option ArrayId :=
  match g.find? name with
  | some (.array id) => some id
  | _ => none

def setScalar (g : Globals) (name : String) (cell : Cell) : Globals :=
  g.bind name (.var cell)

def setArray (g : Globals) (name : String) (id : ArrayId) : Globals :=
  g.bind name (.array id)

theorem array?_setScalar (g : Globals) (name n : String) (cell : Cell) :
    (g.setScalar name cell).array? n = if n = name then none else g.array? n := by
  by_cases h : n = name <;> simp [setScalar, array?, h]

theorem array?_setArray (g : Globals) (name n : String) (id : ArrayId) :
    (g.setArray name id).array? n = if n = name then some id else g.array? n := by
  by_cases h : n = name <;> simp [setArray, array?, h]

def keywords : List String :=
  ["BEGIN", "END", "function", "getline", "if", "else", "while", "for", "do", "break",
    "continue", "next", "nextfile", "exit", "return", "delete", "in", "print", "printf"]

def builtins : List String :=
  ["length", "substr", "index", "split", "sub", "gsub", "match", "sprintf", "sin", "cos",
    "atan2", "exp", "log", "int", "sqrt", "rand", "srand", "tolower", "toupper", "system",
    "close", "fflush"]

def builtinVariables : List (String × Cell) :=
  [("NR", .double (.ofInt 0)), ("FNR", .double (.ofInt 0)), ("NF", .double (.ofInt 0)),
    ("ARGC", .double (.ofInt 0)), ("RSTART", .double (.ofInt 0)), ("RLENGTH", .double (.ofInt (-1))),
    ("FS", .string " "), ("OFS", .string " "), ("RS", .string "\n"), ("ORS", .string "\n"),
    ("SUBSEP", .string "\x1c"), ("CONVFMT", .string "%.6g"), ("OFMT", .string "%.6g")]

def initial : Globals :=
  ⟨fun name =>
    if name ∈ keywords then some .keyword
    else if name ∈ builtins then some .builtin
    else (builtinVariables.lookup name).map .var⟩

end Globals
end AwkStartup
