/-!
# Texts measured in bytes

Offsets into a text count the bytes of its UTF-8 form. A text can be cut only
between two characters: `dropBytes?` answers nothing when the offset falls inside
a character or beyond the end.
-/

namespace AwkStartup
namespace Text

def encode (s : List Char) : List UInt8 :=
  s.flatMap String.utf8EncodeChar

@[simp] theorem encode_nil : encode [] = [] := rfl

@[simp] theorem encode_cons (c : Char) (s : List Char) :
    encode (c :: s) = String.utf8EncodeChar c ++ encode s := rfl

@[simp] theorem encode_append (s t : List Char) : encode (s ++ t) = encode s ++ encode t := by
  simp [encode]

def bytes (text : String) : List UInt8 :=
  encode text.toList

/-- What is left after the first `n` bytes, when they end a character. -/
def dropBytes? : Nat → List Char → Option (List Char)
  | 0, s => some s
  | _ + 1, [] => none
  | n + 1, c :: s =>
    if c.utf8Size ≤ n + 1 then dropBytes? (n + 1 - c.utf8Size) s else none

@[simp] theorem dropBytes?_zero (s : List Char) : dropBytes? 0 s = some s := by
  cases s <;> rfl

/-- A text cut after its first `n` bytes; the rest. -/
def from? (text : String) (n : Nat) : Option String :=
  (dropBytes? n text.toList).map String.ofList

def ofBytes? (content : List UInt8) : Option String :=
  String.fromUTF8? ⟨content.toArray⟩

/-- The ASCII blanks: space, tab, newline, carriage return, vertical tab, form feed. -/
def isBlank (c : Char) : Bool :=
  c == ' ' || c == '\t' || c == '\n' || c == '\r' || c == '\x0b' || c == '\x0c'

def trimBlanks (s : List Char) : List Char :=
  ((s.dropWhile isBlank).reverse.dropWhile isBlank).reverse

end Text
end AwkStartup
