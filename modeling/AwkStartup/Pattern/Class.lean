import AwkStartup.Pattern.Property

/-!
# Escapes and bracketed classes of patterns

Readers take the text after an opening and return what they read with the rest, or nothing when
the text is not a pattern. In verbose mode blanks and comments between the signs are skipped.
-/

namespace AwkStartup
namespace Pattern

/-- The modes that an inline flag can switch. -/
structure Mode where
  verbose : Bool
  unicode : Bool
  deriving DecidableEq, Repr

/-- What a read item costs: how deep it nests and how many bytes its automaton takes. -/
structure Shape where
  depth : Nat
  weight : Nat
  deriving DecidableEq, Repr

/-- The bytes that one state of an automaton takes. -/
def stateWeight : Nat := 32

/-- The bytes of the automaton of a large class of Unicode characters. -/
def classWeight : Nat := 24000

def isWhitespace (c : Char) : Bool :=
  let n := c.toNat
  (9 ≤ n && n ≤ 13) || n = 0x20 || n = 0x85 || n = 0xa0 || n = 0x1680 || (0x2000 ≤ n && n ≤ 0x200a)
    || n = 0x2028 || n = 0x2029 || n = 0x202f || n = 0x205f || n = 0x3000

/-- The text after blanks and comments; the flag says that a comment is open. -/
def skipComments : Bool → List Char → List Char
  | _, [] => []
  | true, c :: s => skipComments (c != '\n') s
  | false, c :: s =>
    if isWhitespace c then skipComments false s
    else if c = '#' then skipComments true s
    else c :: s

def skipSpace (m : Mode) (s : List Char) : List Char :=
  if m.verbose then skipComments false s else s

def isLetter (c : Char) : Bool :=
  ('a' ≤ c && c ≤ 'z') || ('A' ≤ c && c ≤ 'Z')

def isDigit (c : Char) : Bool :=
  '0' ≤ c && c ≤ '9'

def hexValue? (c : Char) : Option Nat :=
  if isDigit c then some (c.toNat - 48)
  else if 'a' ≤ c ∧ c ≤ 'f' then some (c.toNat - 87)
  else if 'A' ≤ c ∧ c ≤ 'F' then some (c.toNat - 55)
  else none

/-- One item of a pattern that is no group. -/
inductive Atom where
  | literal (c : Char)
  | byte (c : Char)
  | set (beyondAscii : Bool) (weight : Nat)
  | dot
  | assertion
  deriving DecidableEq, Repr

def readHexDigits? (m : Mode) : Nat → Nat → List Char → Option (Nat × List Char)
  | 0, value, s => some (value, s)
  | _ + 1, _, [] => none
  | n + 1, value, c :: s =>
    match hexValue? c with
    | some d => readHexDigits? m n (value * 16 + d) (skipSpace m s)
    | none => none

def readBracedHex? (m : Mode) : Nat → Option Nat → List Char → Option (Nat × List Char)
  | 0, _, _ => none
  | fuel + 1, value, s =>
    match skipSpace m s with
    | [] => none
    | '\x7d' :: s => value.map fun n => (n, s)
    | c :: s =>
      match hexValue? c with
      | some d => readBracedHex? m fuel (some (value.getD 0 * 16 + d)) s
      | none => none

def codePoint? (n : Nat) : Option Char :=
  if n.isValidChar then some (Char.ofNat n) else none

/-- A character escaped by its code, after the `x`, `u` or `U`. Two digits after `x` give a byte. -/
def readHex? (m : Mode) (kind : Char) (s : List Char) : Option (Atom × List Char) :=
  match skipSpace m s with
  | [] => none
  | '\x7b' :: s =>
    (readBracedHex? m (s.length + 1) none s).bind fun (n, s) =>
      (codePoint? n).map fun c => (.literal c, skipSpace m s)
  | c :: s =>
    let count := if kind = 'x' then 2 else if kind = 'u' then 4 else 8
    (readHexDigits? m count 0 (c :: s)).bind fun (n, s) =>
      (codePoint? n).map fun c => (if kind = 'x' then .byte c else .literal c, s)

def readBraced? (m : Mode) : Nat → List Char → Option (List Char × List Char)
  | 0, _ => none
  | fuel + 1, s =>
    match skipSpace m s with
    | [] => none
    | '\x7d' :: s => some ([], s)
    | c :: s => (readBraced? m fuel s).map fun (name, s) => (c :: name, s)

/-- A class of characters with a property, after the `p` or `P`. -/
def readProperty? (m : Mode) (s : List Char) : Option (Atom × List Char) :=
  if !m.unicode then none
  else
    match skipSpace m s with
    | [] => none
    | '\x7b' :: s =>
      (readBraced? m (s.length + 1) s).bind fun (name, s) =>
        if Property.accepts name then some (.set true classWeight, s) else none
    | c :: s => if Property.acceptsLetter c then some (.set true classWeight, s) else none

/-- The kind of word boundary in braces after `\b`. The braces belong to a repetition instead
when no letter or hyphen follows the opening one. -/
def readBoundary? (m : Mode) (s : List Char) : Option (List Char) :=
  match s with
  | '\x7b' :: rest =>
    match skipSpace m rest with
    | [] => none
    | c :: more =>
      if isLetter c || c = '-' then
        (readBraced? m (more.length + 2) (c :: more)).bind fun (name, rest) =>
          if ["start", "end", "start-half", "end-half"].contains (String.ofList name) then some rest
          else none
      else some s
  | _ => some s

/-- The control character that a letter stands for behind a backslash. -/
def control? : Char → Option Char
  | 'a' => some '\x07'
  | 'f' => some '\x0c'
  | 't' => some '\t'
  | 'n' => some '\n'
  | 'r' => some '\r'
  | 'v' => some '\x0b'
  | _ => none

/-- An escape, after its backslash. Letters and digits that mean nothing are refused, and so are
characters outside ASCII. -/
def readEscape? (m : Mode) : List Char → Option (Atom × List Char)
  | [] => none
  | c :: s =>
    if isDigit c then none
    else if c = 'x' ∨ c = 'u' ∨ c = 'U' then readHex? m c s
    else if c = 'p' ∨ c = 'P' then readProperty? m s
    else if c = 'd' ∨ c = 's' ∨ c = 'w' then
      some (.set m.unicode (if c = 'w' then classWeight else classWeight / 6), s)
    else if c = 'D' ∨ c = 'S' ∨ c = 'W' then some (.set true classWeight, s)
    else if c = 'b' then (readBoundary? m s).map fun s => (.assertion, s)
    else if c = 'A' ∨ c = 'z' ∨ c = 'B' ∨ c = '<' ∨ c = '>' then some (.assertion, s)
    else
      match control? c with
      | some control => some (.literal control, s)
      | none => if c.toNat < 128 ∧ !isLetter c then some (.literal c, s) else none

/-- What is known of a bracketed class or a part of one: whether it holds characters beyond
ASCII, how deep it nests and how large it is. -/
structure ClassShape where
  beyondAscii : Bool
  depth : Nat
  weight : Nat
  deriving DecidableEq, Repr

/-- An operation between two classes. -/
inductive ClassOp where
  | intersection
  | difference
  | symmetricDifference
  deriving DecidableEq, Repr

namespace ClassShape

def union : List ClassShape → ClassShape
  | [] => ⟨false, 0, 0⟩
  | [item] => item
  | items =>
    { beyondAscii := items.any (·.beyondAscii)
      depth := (items.map (·.depth)).foldl max 0 + 1
      weight := (items.map (·.weight)).foldl (· + ·) 0 }

def combine (op : ClassOp) (a b : ClassShape) : ClassShape :=
  { beyondAscii :=
      match op with
      | .intersection => a.beyondAscii && b.beyondAscii
      | .difference => a.beyondAscii && !b.beyondAscii
      | .symmetricDifference => a.beyondAscii != b.beyondAscii
    depth := max a.depth b.depth + 1
    weight := a.weight + b.weight }

end ClassShape

/-- A bracketed class that is not closed yet. -/
structure OpenClass where
  negated : Bool
  pending : Option (ClassShape × ClassOp)
  items : List ClassShape

namespace OpenClass

/-- The class so far, with the operation before the last items applied. -/
def total (o : OpenClass) : ClassShape :=
  match o.pending with
  | some (left, op) => left.combine op (ClassShape.union o.items)
  | none => ClassShape.union o.items

def push (o : OpenClass) (item : ClassShape) : OpenClass :=
  { o with items := o.items ++ [item] }

def operate (o : OpenClass) (op : ClassOp) : OpenClass :=
  { o with pending := some (o.total, op), items := [] }

def close (m : Mode) (o : OpenClass) : ClassShape :=
  let t := o.total
  { beyondAscii := if o.negated then (if m.unicode then true else !t.beyondAscii) else t.beyondAscii
    depth := t.depth + 1
    weight := if o.negated then classWeight else t.weight }

end OpenClass

def readHyphens (m : Mode) : Nat → OpenClass → List Char → OpenClass × List Char
  | 0, o, s => (o, s)
  | fuel + 1, o, s =>
    match s with
    | '-' :: s => readHyphens m fuel (o.push ⟨false, 0, stateWeight⟩) (skipSpace m s)
    | s => (o, s)

/-- The opening of a class, after its bracket: a caret, hyphens and a first closing bracket that
is literal. -/
def readClassOpening (m : Mode) (s : List Char) : OpenClass × List Char :=
  let s := skipSpace m s
  let (negated, s) :=
    match s with
    | '^' :: s => (true, skipSpace m s)
    | s => (false, s)
  let (o, s) := readHyphens m s.length ⟨negated, none, []⟩ s
  match o.items, s with
  | [], ']' :: s => (o.push ⟨false, 0, stateWeight⟩, skipSpace m s)
  | _, s => (o, s)

/-- A named class such as `[:alpha:]`, after its first bracket: whether it is negated, and the
rest. -/
def readNamedClass? (s : List Char) : Option (Bool × List Char) :=
  match s with
  | ':' :: s =>
    let (negated, s) :=
      match s with
      | '^' :: s => (true, s)
      | s => (false, s)
    match s.dropWhile (· != ':') with
    | ':' :: ']' :: rest =>
      if ["alnum", "alpha", "ascii", "blank", "cntrl", "digit", "graph", "lower", "print", "punct",
          "space", "upper", "word", "xdigit"].contains (String.ofList (s.takeWhile (· != ':'))) then
        some (negated, rest)
      else none
    | _ => none
  | _ => none

def readClassItem? (m : Mode) : List Char → Option (Atom × List Char)
  | [] => none
  | '\\' :: s => readEscape? m s
  | c :: s => some (.literal c, s)

/-- Whether a literal of a class stays within the mode: without Unicode only ASCII does. -/
def literalAllowed (m : Mode) (c : Char) : Bool :=
  m.unicode || c.toNat < 128

def atomShape? (m : Mode) : Atom → Option ClassShape
  | .literal c | .byte c =>
    if literalAllowed m c then some ⟨128 ≤ c.toNat, 0, stateWeight⟩ else none
  | .set beyondAscii weight => some ⟨beyondAscii, 0, weight⟩
  | .dot | .assertion => none

def literal? : Atom → Option Char
  | .literal c | .byte c => some c
  | _ => none

def readClassRange? (m : Mode) (s : List Char) : Option (ClassShape × List Char) :=
  (readClassItem? m s).bind fun (first, s) =>
    match skipSpace m s with
    | [] => none
    | '-' :: rest =>
      match skipSpace m rest with
      | ']' :: _ | '-' :: _ => (atomShape? m first).map fun shape => (shape, '-' :: rest)
      | [] => none
      | rest =>
        (readClassItem? m rest).bind fun (last, rest) =>
          (literal? first).bind fun a =>
            (literal? last).bind fun b =>
              if a ≤ b ∧ literalAllowed m a ∧ literalAllowed m b then
                some (⟨128 ≤ b.toNat, 0, stateWeight⟩, rest)
              else none
    | s => (atomShape? m first).map fun shape => (shape, s)

def readClassFrom? (m : Mode) : Nat → OpenClass → List OpenClass → List Char →
    Option (ClassShape × List Char)
  | 0, _, _, _ => none
  | fuel + 1, o, outer, s =>
    match skipSpace m s with
    | [] => none
    | '[' :: s =>
      match readNamedClass? s with
      | some (negated, rest) =>
        readClassFrom? m fuel (o.push ⟨negated, 0, 4 * stateWeight⟩) outer rest
      | none =>
        let (inner, rest) := readClassOpening m s
        readClassFrom? m fuel inner (o :: outer) rest
    | ']' :: s =>
      match outer with
      | [] => some (o.close m, s)
      | enclosing :: outer => readClassFrom? m fuel (enclosing.push (o.close m)) outer s
    | '&' :: '&' :: s => readClassFrom? m fuel (o.operate .intersection) outer s
    | '-' :: '-' :: s => readClassFrom? m fuel (o.operate .difference) outer s
    | '~' :: '~' :: s => readClassFrom? m fuel (o.operate .symmetricDifference) outer s
    | s =>
      (readClassRange? m s).bind fun (item, rest) => readClassFrom? m fuel (o.push item) outer rest

/-- A bracketed class, after its opening bracket. Without Unicode it must not go beyond ASCII. -/
def readClass? (m : Mode) (s : List Char) : Option (Shape × List Char) :=
  let (o, rest) := readClassOpening m s
  (readClassFrom? m (s.length + 1) o [] rest).bind fun (shape, rest) =>
    if shape.beyondAscii ∧ !m.unicode then none else some (⟨shape.depth, shape.weight⟩, rest)

end Pattern
end AwkStartup
