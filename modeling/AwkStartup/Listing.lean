import AwkStartup.Interpreter
import AwkStartup.Workspace

/-!
# The listing of a start

A listing shows the lines of the program texts, numbered within each text, and then the seeded
arguments. Arguments that read as numbers are marked.
-/

namespace AwkStartup
namespace Listing

/-- A text filled up with spaces on the left. -/
def alignRight (width : Nat) (s : List Char) : List Char :=
  List.replicate (width - s.length) ' ' ++ s

def sourceLine (number : Nat) (line : List Char) : String :=
  String.ofList (alignRight 6 (Nat.toDigits 10 number) ++ '\t' :: (line ++ ['\n']))

def sourceLines (text : String) : List String :=
  (Text.lines text.toList).mapIdx fun index line => sourceLine (index + 1) line

def programLines (program : ProgramText) : List String :=
  ("# program: " ++ program.origin.getD "command line" ++ "\n") :: sourceLines program.text

def argumentLine (index : Int) (cell : Cell) : String :=
  let mark :=
    match cell.check with
    | .numericString _ _ => " (strnum)"
    | _ => ""
  "# ARGV[" ++ toString index ++ "] = " ++ cell.display ++ mark ++ "\n"

def argumentLines (w : Workspace) : List String :=
  (match w.globals.scalar? "ARGC" with
    | some argc => ["# ARGC = " ++ argc.display ++ "\n"]
    | none => []) ++
  (match w.globals.array? "ARGV" with
    | some id => (w.contents id).indexed.map fun (index, cell) => argumentLine index cell
    | none => [])

/-- The listing of program texts and arguments. -/
def write (program : List ProgramText) (w : Workspace) : String :=
  String.join (program.flatMap programLines ++ argumentLines w)

end Listing
end AwkStartup
