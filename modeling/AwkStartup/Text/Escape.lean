/-!
# Backslash escapes in command-line values

`decode` reads the two-character escapes, one to three octal digits, and `x` with one or two
hexadecimal digits. A numeric escape stands for the character whose code is its low eight
bits. Every other backslash stands for itself.
-/

namespace AwkStartup
namespace Text
namespace Escape

/-- The character that a backslash and a letter or sign stand for. -/
def simple? : Char → Option Char
  | 'n' => some '\n'
  | 't' => some '\t'
  | 'f' => some '\x0c'
  | 'b' => some '\x08'
  | 'r' => some '\r'
  | 'a' => some '\x07'
  | 'v' => some '\x0b'
  | '\\' => some '\\'
  | '"' => some '"'
  | _ => none

def hexDigit? (c : Char) : Option Nat :=
  if '0' ≤ c ∧ c ≤ '9' then some (c.toNat - '0'.toNat)
  else if 'a' ≤ c ∧ c ≤ 'f' then some (c.toNat - 'a'.toNat + 10)
  else if 'A' ≤ c ∧ c ≤ 'F' then some (c.toNat - 'A'.toNat + 10)
  else none

def octalDigit? (c : Char) : Option Nat :=
  if '0' ≤ c ∧ c ≤ '7' then some (c.toNat - '0'.toNat) else none

/-- The longest run of digits at the front, of at most `limit`. -/
def digitRun (digit? : Char → Option Nat) : Nat → List Char → List Nat
  | 0, _ => []
  | _ + 1, [] => []
  | limit + 1, c :: s =>
    match digit? c with
    | some d => d :: digitRun digit? limit s
    | none => []

def value (base : Nat) (digits : List Nat) : Nat :=
  digits.foldl (fun n d => n * base + d) 0

/-- The character of a code's low eight bits. -/
def byteChar (code : Nat) : Char :=
  Char.ofNat (code % 256)

/-- What follows a backslash: the characters it is decoded to, and how many it takes. -/
def afterBackslash : List Char → List Char × Nat
  | [] => (['\\'], 0)
  | c :: s =>
    match simple? c with
    | some d => ([d], 1)
    | none =>
      match digitRun octalDigit? 3 (c :: s) with
      | d :: ds => ([byteChar (value 8 (d :: ds))], ds.length + 1)
      | [] =>
        if c = 'x' then
          match digitRun hexDigit? 2 s with
          | d :: ds => ([byteChar (value 16 (d :: ds))], ds.length + 2)
          | [] => (['\\', 'x'], 1)
        else (['\\', c], 1)

/-- The decoded text, after skipping characters that an escape has taken. -/
def decodeFrom : Nat → List Char → List Char
  | _, [] => []
  | skip + 1, _ :: s => decodeFrom skip s
  | 0, c :: s =>
    if c = '\\' then (afterBackslash s).1 ++ decodeFrom (afterBackslash s).2 s
    else c :: decodeFrom 0 s

/-- A text with its escapes replaced by the characters they stand for. -/
def decode (s : List Char) : List Char :=
  decodeFrom 0 s

theorem decodeFrom_eq_drop (n : Nat) (s : List Char) : decodeFrom n s = decode (s.drop n) := by
  induction n generalizing s with
  | zero => rfl
  | succ n ih =>
    cases s with
    | nil => rfl
    | cons c s => exact ih s

theorem decode_backslash (s : List Char) :
    decode ('\\' :: s) = (afterBackslash s).1 ++ decode (s.drop (afterBackslash s).2) := by
  rw [← decodeFrom_eq_drop]
  simp [decode, decodeFrom]

theorem decode_cons {c : Char} (h : c ≠ '\\') (s : List Char) : decode (c :: s) = c :: decode s := by
  simp [decode, decodeFrom, h]

end Escape

/-- A command-line value with its escapes decoded. -/
def unescape (text : String) : String :=
  String.ofList (Escape.decode text.toList)

end Text
end AwkStartup
