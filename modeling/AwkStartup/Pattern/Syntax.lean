import AwkStartup.Pattern.Class
import AwkStartup.Text.Hidden

/-!
# Which texts are patterns

`verdict` reads a whole text as a regular expression without look-around and back references. A
pattern may nest at most 250 deep and its automaton may take at most ten mebibytes.
-/

namespace AwkStartup
namespace Pattern

/-- One item of a sequence; inline flags cannot be repeated. -/
structure Piece where
  shape : Shape
  repeatable : Bool
  deriving DecidableEq, Repr

def sequenceShape : List Piece → Shape
  | [] => ⟨0, 0⟩
  | [p] => p.shape
  | ps =>
    { depth := (ps.map (·.shape.depth)).foldl max 0 + 1
      weight := (ps.map (·.shape.weight)).foldl (· + ·) 0 }

def alternativesShape : List Shape → Shape
  | [] => ⟨0, 0⟩
  | [s] => s
  | ss =>
    { depth := (ss.map (·.depth)).foldl max 0 + 1
      weight := (ss.map (·.weight)).foldl (· + ·) 0 + stateWeight }

/-- What surrounds a group that is not closed yet. -/
structure Frame where
  mode : Mode
  pieces : List Piece
  alternatives : List Shape

/-- How far a pattern has been read. -/
structure Reading where
  mode : Mode
  pieces : List Piece
  alternatives : List Shape
  frames : List Frame
  names : List (List Char)

namespace Reading

def push (r : Reading) (shape : Shape) : Reading :=
  { r with pieces := r.pieces ++ [⟨shape, true⟩] }

def level (r : Reading) : Shape :=
  alternativesShape (r.alternatives ++ [sequenceShape r.pieces])

def alternate (r : Reading) : Reading :=
  { r with pieces := [], alternatives := r.alternatives ++ [sequenceShape r.pieces] }

def openGroup (r : Reading) (inner : Mode) : Reading :=
  { r with
    mode := inner
    pieces := []
    alternatives := []
    frames := ⟨r.mode, r.pieces, r.alternatives⟩ :: r.frames }

/-- Closes the last open group, which restores the modes from before it. -/
def closeGroup? (r : Reading) : Option Reading :=
  match r.frames with
  | [] => none
  | f :: frames =>
    let group : Shape := ⟨r.level.depth + 1, r.level.weight + 2 * stateWeight⟩
    some
      { r with
        mode := f.mode
        pieces := f.pieces ++ [⟨group, true⟩]
        alternatives := f.alternatives
        frames := frames }

def repeat? (r : Reading) (least : Nat) (most : Option Nat) : Option Reading :=
  match r.pieces.getLast? with
  | some ⟨shape, true⟩ =>
    let copies :=
      match most with
      | none => max least 1 * shape.weight + stateWeight
      | some n => n * shape.weight + (n - least) * stateWeight
    some { r with pieces := r.pieces.dropLast ++ [⟨⟨shape.depth + 1, copies⟩, true⟩] }
  | _ => none

end Reading

def isNameStart (c : Char) : Bool :=
  c = '_' || isLetter c || (128 ≤ c.toNat && !Text.isHidden c)

def isNamePart (c : Char) : Bool :=
  isNameStart c || isDigit c || c = '.' || c = '[' || c = ']'

def readName? (s : List Char) : Option (List Char × List Char) :=
  match s.takeWhile (· != '>'), s.dropWhile (· != '>') with
  | c :: name, '>' :: rest => if isNameStart c && name.all isNamePart then some (c :: name, rest) else none
  | _, _ => none

/-- Inline flags up to a colon or closing parenthesis: the modes they set, whether there are any,
and the text from the sign that ends them. -/
def readFlags? (m : Mode) : List Char → Bool → Bool → List Char → Option (Mode × Bool × List Char)
  | _, _, _, [] => none
  | seen, negated, dangling, c :: s =>
    if c = ':' ∨ c = ')' then
      if dangling then none else some (m, seen != [] || negated, c :: s)
    else if c = '-' then
      if negated then none else readFlags? m seen true true s
    else if ['i', 'm', 's', 'U', 'u', 'R', 'x'].contains c ∧ c ∉ seen then
      let m : Mode :=
        if c = 'x' then { m with verbose := !negated }
        else if c = 'u' then { m with unicode := !negated }
        else m
      readFlags? m (c :: seen) negated false s
    else none

/-- A group after its opening parenthesis. Look-around is refused. -/
def readGroup? (r : Reading) (s : List Char) : Option (Reading × List Char) :=
  match skipSpace r.mode s with
  | '?' :: '=' :: _ | '?' :: '!' :: _ | '?' :: '<' :: '=' :: _ | '?' :: '<' :: '!' :: _ => none
  | '?' :: 'P' :: '<' :: s | '?' :: '<' :: s =>
    (readName? s).bind fun (name, s) =>
      if name ∈ r.names then none
      else some ({ r with names := name :: r.names }.openGroup r.mode, s)
  | '?' :: s =>
    (readFlags? r.mode [] false false s).bind fun (m, any, s) =>
      match s with
      | ')' :: s =>
        if any then some ({ r with mode := m, pieces := r.pieces ++ [⟨⟨0, 0⟩, false⟩] }, s) else none
      | _ :: s => some (r.openGroup m, s)
      | [] => none
  | s => some (r.openGroup r.mode, s)

def readCountDigits (m : Mode) : Nat → List Char → List Char → List Char × List Char
  | 0, digits, s => (digits, s)
  | fuel + 1, digits, s =>
    match s with
    | c :: s => if isDigit c then readCountDigits m fuel (digits ++ [c]) (skipSpace m s) else (digits, c :: s)
    | [] => (digits, [])

/-- A count of a repetition, below `2 ^ 32`, and the rest. -/
def readCount (m : Mode) (s : List Char) : Option Nat × List Char :=
  let (digits, s) := readCountDigits m (s.length + 1) [] (s.dropWhile isWhitespace)
  let n := Nat.ofDigitChars 10 digits 0
  let rest := skipSpace m (s.dropWhile isWhitespace)
  (if digits ≠ [] ∧ n < 0x100000000 then some n else none, rest)

def readBounds? (m : Mode) (s : List Char) : Option (Nat × Option Nat × List Char) :=
  let (first, s) := readCount m (skipSpace m s)
  match first, s with
  | some least, '\x7d' :: s => some (least, some least, s)
  | some least, ',' :: s =>
    match skipSpace m s with
    | '\x7d' :: s => some (least, none, s)
    | s =>
      match readCount m s with
      | (some most, '\x7d' :: s) => if least ≤ most then some (least, some most, s) else none
      | _ => none
  | _, _ => none

def skipLazy : List Char → List Char
  | '?' :: s => s
  | s => s

/-- The shape of an item outside classes. Without Unicode it must not match parts of characters. -/
def atomAsPiece? (m : Mode) : Atom → Option Shape
  | .literal c => some ⟨0, c.utf8Size * stateWeight⟩
  | .byte c => if literalAllowed m c then some ⟨0, c.utf8Size * stateWeight⟩ else none
  | .set beyondAscii weight => if m.unicode || !beyondAscii then some ⟨0, weight⟩ else none
  | .dot => if m.unicode then some ⟨0, 12 * stateWeight⟩ else none
  | .assertion => some ⟨0, stateWeight⟩

def step? (r : Reading) (c : Char) (s : List Char) : Option (Reading × List Char) :=
  match c with
  | '(' => readGroup? r s
  | ')' => r.closeGroup?.map fun r => (r, s)
  | '|' => some (r.alternate, s)
  | '[' => (readClass? r.mode s).map fun (shape, s) => (r.push shape, s)
  | '?' => (r.repeat? 0 (some 1)).map fun r => (r, skipLazy s)
  | '*' => (r.repeat? 0 none).map fun r => (r, skipLazy s)
  | '+' => (r.repeat? 1 none).map fun r => (r, skipLazy s)
  | '\x7b' =>
    (readBounds? r.mode s).bind fun (least, most, s) =>
      (r.repeat? least most).map fun r => (r, skipLazy (skipSpace r.mode s))
  | '\\' =>
    (readEscape? r.mode s).bind fun (atom, s) =>
      (atomAsPiece? r.mode atom).map fun shape => (r.push shape, s)
  | '.' => (atomAsPiece? r.mode .dot).map fun shape => (r.push shape, s)
  | '^' | '$' => some (r.push ⟨0, stateWeight⟩, s)
  | c => (atomAsPiece? r.mode (.literal c)).map fun shape => (r.push shape, s)

/-- Reads items to the end of the text; every item takes at least one character. -/
def readAll? : Nat → Reading → List Char → Option Reading
  | 0, _, _ => none
  | fuel + 1, r, s =>
    match skipSpace r.mode s with
    | [] => some r
    | c :: s => (step? r c s).bind fun (r, s) => readAll? fuel r s

def shape? (s : List Char) : Option Shape :=
  (readAll? (s.length + 1) ⟨⟨false, true⟩, [], [], [], []⟩ s).bind fun r =>
    if r.frames.isEmpty then some r.level else none

/-- How the reading of a pattern ends. -/
inductive Verdict where
  | accepted
  | malformed
  | tooLarge
  deriving DecidableEq, Repr

def depthLimit : Nat := 250

def weightLimit : Nat := 10 * 0x100000

/-- Whether a text is a pattern. -/
def verdict (s : List Char) : Verdict :=
  match shape? s with
  | none => .malformed
  | some shape =>
    if depthLimit < shape.depth then .malformed
    else if weightLimit < shape.weight then .tooLarge
    else .accepted

end Pattern
end AwkStartup
