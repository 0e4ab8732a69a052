import AwkStartup.Toml.Quoted
import AwkStartup.Toml.Scalar
import AwkStartup.Toml.Table

/-!
# Configuration documents

A document is a list of lines, each a key with a value, a header, or empty, with an optional
comment. `read?` gives the value of a whole document, or nothing when it is malformed.
-/

namespace AwkStartup
namespace Toml

def isBlank (c : Char) : Bool :=
  c = ' ' || c = '\t'

def skipBlanks (s : List Char) : List Char :=
  s.dropWhile isBlank

/-- The text after a comment, up to the newline; without a comment nothing is skipped. -/
def skipComment? : List Char → Option (List Char)
  | '#' :: s =>
    let rest := s.dropWhile Quoted.isPlain
    if rest = [] ∨ (Quoted.newline? rest).isSome then some rest else none
  | s => some s

def skipLines? : Nat → List Char → Option (List Char)
  | 0, s => some s
  | fuel + 1, s =>
    (skipComment? (skipBlanks s)).bind fun s =>
      match Quoted.newline? s with
      | some s => skipLines? fuel s
      | none => some s

def isBareKeyChar (c : Char) : Bool :=
  ('a' ≤ c && c ≤ 'z') || ('A' ≤ c && c ≤ 'Z') || Scalar.isDigit c || c = '_' || c = '-'

def readSimpleKey? (s : List Char) : Option (String × List Char) :=
  match s with
  | '"' :: _ | '\'' :: _ => (Quoted.readLine? s).map fun (key, s) => (String.ofList key, s)
  | _ =>
    let key := s.takeWhile isBareKeyChar
    if key = [] then none else some (String.ofList key, s.dropWhile isBareKeyChar)

/-- A key, its parts joined by points, and the text after the blanks that follow it. -/
def readKey? : Nat → List Char → Option (List String × List Char)
  | 0, _ => none
  | fuel + 1, s =>
    (readSimpleKey? (skipBlanks s)).bind fun (key, s) =>
      match skipBlanks s with
      | '.' :: s => (readKey? fuel s).map fun (keys, s) => (key :: keys, s)
      | s => some ([key], s)

def isScalarChar (c : Char) : Bool :=
  isBareKeyChar c || c = '+' || c = '.' || c = ':'

/-- A scalar that is no string. A date and a time may be joined by a space. -/
def readScalar? (s : List Char) : Option (Value × List Char) :=
  let token := s.takeWhile isScalarChar
  let rest := s.dropWhile isScalarChar
  let (token, rest) :=
    match Scalar.readDate? token, rest with
    | some [], ' ' :: more =>
      if (Scalar.twoDigits? 0 99 more).isSome then
        (token ++ ' ' :: more.takeWhile isScalarChar, more.dropWhile isScalarChar)
      else (token, rest)
    | _, _ => (token, rest)
  (Scalar.value? token).map fun v => (v, rest)

def depthLimit : Nat := 80

mutual

/-- A value that opens at most `depth` brackets inside each other, and the rest. -/
def readValue? : Nat → Nat → List Char → Option (Value × List Char)
  | 0, _, _ => none
  | fuel + 1, depth, s =>
    match s, depth with
    | '"' :: _, _ | '\'' :: _, _ =>
      (Quoted.read? s).map fun (text, s) => (.string (String.ofList text), s)
    | '[' :: s, depth + 1 => (readElements? fuel depth s).map fun (values, s) => (.array values, s)
    | '\x7b' :: s, depth + 1 =>
      match skipBlanks s with
      | '\x7d' :: s => some (.table [], s)
      | s => (readPairs? fuel depth [] s).map fun (entries, s) => (.table (entriesToValues entries), s)
    | s, _ => readScalar? s

/-- The values of an array after its opening, and the rest. A comma may follow the last one. -/
def readElements? : Nat → Nat → List Char → Option (List Value × List Char)
  | 0, _, _ => none
  | fuel + 1, depth, s =>
    (skipLines? (s.length + 1) s).bind fun s =>
      match s with
      | ']' :: s => some ([], s)
      | s =>
        (readValue? fuel depth s).bind fun (v, s) =>
          (skipLines? (s.length + 1) s).bind fun s =>
            match s with
            | ',' :: s => (readElements? fuel depth s).map fun (vs, s) => (v :: vs, s)
            | ']' :: s => some ([v], s)
            | _ => none

/-- The entries of an inline table, on one line and without a comma after the last one. -/
def readPairs? : Nat → Nat → Entries → List Char → Option (Entries × List Char)
  | 0, _, _, _ => none
  | fuel + 1, depth, entries, s =>
    (readKey? (s.length + 1) s).bind fun (path, s) =>
      match s with
      | '=' :: s =>
        (readValue? fuel depth (skipBlanks s)).bind fun (v, s) =>
          (assign? v true path entries).bind fun entries =>
            match skipBlanks s with
            | ',' :: s => readPairs? fuel depth entries s
            | '\x7d' :: s => some (entries, s)
            | _ => none
      | _ => none

end

/-- The document so far, and the header whose table is open. -/
structure Draft where
  root : Entries
  header : List String

def readHeader? (d : Draft) (s : List Char) : Option (Draft × List Char) :=
  match s with
  | '[' :: s =>
    (readKey? (s.length + 1) s).bind fun (path, s) =>
      match s with
      | ']' :: ']' :: s => (appendTable? path d.root).map fun root => (⟨root, path⟩, s)
      | _ => none
  | s =>
    (readKey? (s.length + 1) s).bind fun (path, s) =>
      match s with
      | ']' :: s => (defineTable? path d.root).map fun root => (⟨root, path⟩, s)
      | _ => none

def readPair? (d : Draft) (s : List Char) : Option (Draft × List Char) :=
  (readKey? (s.length + 1) s).bind fun (path, s) =>
    match s with
    | '=' :: s =>
      (readValue? (2 * s.length + 2) depthLimit (skipBlanks s)).bind fun (v, s) =>
        (within? (assign? v true path) d.header d.root).map fun root => (⟨root, d.header⟩, s)
    | _ => none

def readLines? : Nat → Draft → List Char → Option Entries
  | 0, _, _ => none
  | fuel + 1, d, s =>
    let line : Option (Draft × List Char) :=
      match skipBlanks s with
      | [] => some (d, [])
      | '#' :: s => some (d, '#' :: s)
      | '\n' :: s => some (d, '\n' :: s)
      | '\r' :: s => some (d, '\r' :: s)
      | '[' :: s => readHeader? d s
      | s => readPair? d s
    line.bind fun (d, s) =>
      (skipComment? (skipBlanks s)).bind fun s =>
        match s with
        | [] => some d.root
        | s => (Quoted.newline? s).bind fun s => readLines? fuel d s

/-- The value of a document. A byte order mark may come first. -/
def read? (text : String) : Option Value :=
  let s :=
    match text.toList with
    | '\ufeff' :: s => s
    | s => s
  (readLines? (s.length + 1) ⟨[], []⟩ s).map fun root => .table (entriesToValues root)

end Toml
end AwkStartup
