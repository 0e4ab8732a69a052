import AwkStartup.Toml.Value

/-!
# Strings of configuration documents

Strings stand in double quotes, with escapes, or in single quotes, without. Three quotes open
a string that may span lines. Control characters other than the tab are refused.
-/

namespace AwkStartup
namespace Toml
namespace Quoted

/-- Whether a character may stand in a string or a comment. -/
def isPlain (c : Char) : Bool :=
  c = '\t' || (32 ≤ c.toNat && c.toNat ≠ 127)

def simpleEscape? : Char → Option Char
  | 'b' => some '\x08'
  | 't' => some '\t'
  | 'n' => some '\n'
  | 'f' => some '\x0c'
  | 'r' => some '\r'
  | '"' => some '"'
  | '\\' => some '\\'
  | _ => none

def hexValue? (c : Char) : Option Nat :=
  if '0' ≤ c ∧ c ≤ '9' then some (c.toNat - 48)
  else if 'a' ≤ c ∧ c ≤ 'f' then some (c.toNat - 87)
  else if 'A' ≤ c ∧ c ≤ 'F' then some (c.toNat - 55)
  else none

def codePoint? (digits : List Char) (count : Nat) : Option Char :=
  if digits.length = count ∧ digits.all fun c => (hexValue? c).isSome then
    let n := digits.foldl (fun n c => n * 16 + (hexValue? c).getD 0) 0
    if n.isValidChar then some (Char.ofNat n) else none
  else none

def readEscape? : List Char → Option (Char × List Char)
  | 'u' :: s => (codePoint? (s.take 4) 4).map fun c => (c, s.drop 4)
  | 'U' :: s => (codePoint? (s.take 8) 8).map fun c => (c, s.drop 8)
  | c :: s => (simpleEscape? c).map fun c => (c, s)
  | [] => none

def readBasic? : Nat → List Char → Option (List Char × List Char)
  | 0, _ => none
  | _ + 1, [] => none
  | fuel + 1, c :: s =>
    if c = '"' then some ([], s)
    else if c = '\\' then
      (readEscape? s).bind fun (d, s) => (readBasic? fuel s).map fun (ds, s) => (d :: ds, s)
    else if isPlain c then (readBasic? fuel s).map fun (ds, s) => (c :: ds, s)
    else none

def readLiteral? : List Char → Option (List Char × List Char)
  | [] => none
  | c :: s =>
    if c = '\'' then some ([], s)
    else if isPlain c then (readLiteral? s).map fun (ds, s) => (c :: ds, s)
    else none

def newline? : List Char → Option (List Char)
  | '\n' :: s => some s
  | '\r' :: '\n' :: s => some s
  | _ => none

/-- The text after a backslash that ends a line: blanks and newlines are skipped. -/
def skipLineEnd? (s : List Char) : Option (List Char) :=
  (newline? (s.dropWhile fun c => c = ' ' || c = '\t')).map fun s =>
    s.dropWhile fun c => c = ' ' || c = '\t' || c = '\n' || c = '\r'

/-- A string over several lines after its opening, and the rest. Up to two quotes may stand
before the three that close it. -/
def readMultiline? (quote : Char) (escapes : Bool) : Nat → List Char → Option (List Char × List Char)
  | 0, _ => none
  | _ + 1, [] => none
  | fuel + 1, c :: s =>
    if c = quote then
      let count := min 5 ((c :: s).takeWhile (· == quote)).length
      if 3 ≤ count then some (List.replicate (count - 3) quote, s.drop (count - 1))
      else (readMultiline? quote escapes fuel s).map fun (ds, s) => (c :: ds, s)
    else if c = '\\' ∧ escapes then
      match readEscape? s with
      | some (d, s) => (readMultiline? quote escapes fuel s).map fun (ds, s) => (d :: ds, s)
      | none => (skipLineEnd? s).bind fun s => readMultiline? quote escapes fuel s
    else
      match newline? (c :: s) with
      | some s => (readMultiline? quote escapes fuel s).map fun (ds, s) => ('\n' :: ds, s)
      | none =>
        if isPlain c then (readMultiline? quote escapes fuel s).map fun (ds, s) => (c :: ds, s)
        else none

/-- The text after a newline that follows the opening of a string over several lines. -/
def skipFirstNewline (s : List Char) : List Char :=
  (newline? s).getD s

def readLine? : List Char → Option (List Char × List Char)
  | '"' :: s => readBasic? (s.length + 1) s
  | '\'' :: s => readLiteral? s
  | _ => none

def read? : List Char → Option (List Char × List Char)
  | '"' :: '"' :: '"' :: s => readMultiline? '"' true (s.length + 1) (skipFirstNewline s)
  | '\'' :: '\'' :: '\'' :: s => readMultiline? '\'' false (s.length + 1) (skipFirstNewline s)
  | s => readLine? s

end Quoted
end Toml
end AwkStartup
