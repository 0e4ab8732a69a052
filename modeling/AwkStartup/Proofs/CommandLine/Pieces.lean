import AwkStartup.Proofs.CommandLine.Rounds
import AwkStartup.Proofs.Number.LeadingInteger

/-!
# The pieces of a group

A group is a list of pieces joined by commas, and a piece is a candidate with perhaps a value after
an equals sign. `readPieces` says what each piece asks for, without offsets.
-/

namespace AwkStartup
namespace Group

variable {table : List (Abbreviation.Keyword ImplementationOption)} {group : String}

/-- The candidate of a piece: the text before its first equals sign. -/
def candidate (piece : List Char) : List Char :=
  piece.takeWhile (· != '=')

/-- The value of a piece: the text after its first equals sign. -/
def value? (piece : List Char) : Option (List Char) :=
  (piece.dropWhile (· != '=')).tail?

/-- A value that an option can take is not empty and does not start with another equals sign. -/
def isUsable (value : List Char) : Bool :=
  value != [] && value.head? != some '='

def usable? (piece : List Char) : Option (List Char) :=
  (value? piece).filter isUsable

def join (pieces : List (List Char)) : List Char :=
  [','].intercalate pieces

/-- The remark on a value that no option took. It quotes the group from the piece on. -/
def surplusOf (piece : List Char) (later : List (List Char)) : List Directive :=
  if (value? piece).isSome then
    [.notice (.unexpectedValue (String.ofList (join (piece :: later))))]
  else []

def numericPiece (piece : List Char) (option : ImplementationOption)
    (directive : Int → Directive) : Reading :=
  match usable? piece with
  | some value => ⟨[directive (Leading.integer value)], .through⟩
  | none => ⟨[], .refused (.missingValue option)⟩

def optionPiece (piece : List Char) (later : List (List Char)) :
    Option ImplementationOption → Reading
  | none =>
    ⟨.notice (.vacuous (String.ofList (join (piece :: later)))) :: surplusOf piece later, .through⟩
  | some .version => ⟨.version :: surplusOf piece later, .through⟩
  | some .binmode => numericPiece piece .binmode .binmode
  | some .dump => ⟨.dump :: surplusOf piece later, .through⟩
  | some .help | some .usage => ⟨[], .usage⟩
  | some .interactive => ⟨.interactive :: surplusOf piece later, .through⟩
  | some .exec => ⟨[], .exec ((usable? piece).map fun value => String.ofList (join (value :: later)))⟩
  | some .random => numericPiece piece .random .random
  | some .sprintf => numericPiece piece .sprintf .sprintf
  | some .posixSpace => ⟨.posixSpace :: surplusOf piece later, .through⟩

def readPiece (table : List (Abbreviation.Keyword ImplementationOption)) (piece : List Char)
    (later : List (List Char)) : Reading :=
  let resolution := Abbreviation.resolve table (Text.encode (candidate piece))
  (optionPiece piece later resolution.code?).after (doubts resolution)

/-- Reads pieces from the left. Empty pieces ask for nothing. -/
def readPieces (table : List (Abbreviation.Keyword ImplementationOption)) :
    List (List Char) → Reading
  | [] => .empty
  | piece :: later =>
    if piece = [] then readPieces table later
    else (readPiece table piece later).andThen (readPieces table later)

theorem join_cons (piece : List Char) (later : List (List Char)) :
    join (piece :: later) = piece ++ later.flatMap (',' :: ·) := by
  induction later generalizing piece with
  | nil => simp [join]
  | cons next later ih =>
    have hnext := ih next
    simp only [join] at hnext ⊢
    rw [List.intercalate_cons_cons, hnext]
    simp

section Values

variable {piece : List Char}

theorem candidate_of_value?_eq_none (h : value? piece = none) : candidate piece = piece := by
  have happ := List.takeWhile_append_dropWhile (p := (· != '=')) (l := piece)
  unfold value? at h
  cases hd : piece.dropWhile (· != '=') with
  | nil => rwa [hd, List.append_nil] at happ
  | cons c value => simp [hd] at h

theorem eq_candidate_append_of_value? {value : List Char} (h : value? piece = some value) :
    piece = candidate piece ++ '=' :: value := by
  have happ := List.takeWhile_append_dropWhile (p := (· != '=')) (l := piece)
  have hhead := List.head?_dropWhile_not (· != '=') piece
  unfold value? at h
  cases hd : piece.dropWhile (· != '=') with
  | nil => simp [hd] at h
  | cons c rest =>
    rw [hd] at happ hhead h
    simp only [List.tail?_cons, Option.some.injEq] at h
    simp only [List.head?_cons, bne_eq_false_iff_eq] at hhead
    rw [← h, ← hhead]
    exact happ.symm

theorem eq_candidate_equals_append {value : List Char} (h : value? piece = some value) :
    piece = (candidate piece ++ ['=']) ++ value := by
  rw [List.append_assoc]
  exact eq_candidate_append_of_value? h

theorem value?_of_usable? {value : List Char} (h : usable? piece = some value) :
    value? piece = some value :=
  (Option.filter_eq_some_iff.mp h).1

theorem integer_join (value : List Char) (later : List (List Char)) :
    Leading.integer (join (value :: later)) = Leading.integer value := by
  rw [join_cons]
  cases later with
  | nil => simp
  | cons next later => exact Leading.integer_append_comma _ _

end Values

end Group
end AwkStartup
