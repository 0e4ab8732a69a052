import Mathlib.Tactic
import AwkStartup.Listing
import AwkStartup.Proofs.Text.Lines
import AwkStartup.Proofs.Text.Runs

/-!
# What a listing shows of the program

A listing shows the lines of each program text under a header, with their numbers in front. Behind
the tab after its number each line is what the text has there, so the text can be read off its
listing, up to the way its lines end.
-/

namespace AwkStartup
namespace Listing

variable {text : String} {lines : List String}

def afterTab (line : String) : String :=
  String.ofList ((line.toList.dropWhile (· != '\t')).drop 1)

def numberField (n : Nat) : String :=
  String.ofList (List.replicate (6 - (toString n).length) ' ') ++ toString n

/-- The header of a program text names its origin. -/
def header (program : ProgramText) : String :=
  "# program: " ++ program.origin.getD "command line"

/-- Lines from which a text can be read off. Each has its number, counted from one, a tab and a line
of the source, and the lines of the source are the text, but for the way they end: a carriage return
and a newline become a newline, and the last line ends in one too. -/
structure Lists (text : String) (lines : List String) : Prop where
  numbered : ∀ (k : Nat) (line : String), lines[k]? = some line →
    ∃ source : String, '\n' ∉ source.toList ∧ line = numberField (k + 1) ++ "\t" ++ source
  restored : String.join (lines.map fun line => afterTab line ++ "\n") =
    String.ofList (Text.withFinalNewline (Text.unixNewlines text.toList))

/-- The lines of a text with the numbers from one on. -/
def numberedLines (text : String) : List String :=
  (Text.lines text.toList).mapIdx fun k line => numberField (k + 1) ++ "\t" ++ String.ofList line

theorem tab_notMem_numberField (n : Nat) : '\t' ∉ (numberField n).toList := by
  intro htab
  rw [numberField, String.toList_append, String.toList_ofList, List.mem_append] at htab
  rcases htab with hspace | hdigit
  · exact absurd (List.eq_of_mem_replicate hspace) (by decide)
  · rw [Nat.toString_eq_repr, Nat.toList_repr] at hdigit
    exact absurd (Nat.isDigit_of_mem_toDigits (by omega) le_rfl hdigit) (by decide)

theorem afterTab_numberField (n : Nat) (source : String) :
    afterTab (numberField n ++ "\t" ++ source) = source := by
  have hline : (numberField n ++ "\t" ++ source).toList =
      (numberField n).toList ++ '\t' :: source.toList := by
    simp
  have hrun : ∀ c ∈ (numberField n).toList, (c != '\t') = true := by
    intro c hc
    rw [bne_iff_ne]
    rintro rfl
    exact tab_notMem_numberField n hc
  have hstop : ∀ c, ('\t' :: source.toList).head? = some c → (c != '\t') = false := by
    intro c hc
    obtain rfl := Option.some.inj hc
    rfl
  rw [afterTab, hline, Text.dropWhile_append_of_run hrun hstop, List.drop_one, List.tail_cons,
    String.ofList_toList]

theorem join_newline (ls : List (List Char)) :
    String.join (ls.map fun line => String.ofList line ++ "\n") = String.ofList (Text.unlines ls) := by
  rw [← String.toList_inj, String.toList_join, List.flatMap_map]
  simp [Text.unlines]

theorem sourceLine_eq (number : Nat) (line : List Char) :
    sourceLine number line = numberField number ++ "\t" ++ String.ofList line ++ "\n" := by
  have hlength : (toString number).length = (Nat.toDigits 10 number).length := by
    rw [← String.length_toList, Nat.toString_eq_repr, Nat.toList_repr]
  rw [← String.toList_inj, sourceLine, alignRight, numberField, hlength]
  simp

theorem sourceLines_eq (text : String) :
    sourceLines text = (numberedLines text).map (· ++ "\n") := by
  apply List.ext_getElem?
  intro k
  simp [sourceLines, numberedLines, sourceLine_eq, Function.comp_def]

theorem map_afterTab_numberedLines (text : String) :
    (numberedLines text).map afterTab = (Text.lines text.toList).map String.ofList := by
  apply List.ext_getElem?
  intro k
  simp [numberedLines, afterTab_numberField, Function.comp_def]

theorem lists_numberedLines (text : String) : Lists text (numberedLines text) := by
  constructor
  · intro k line hline
    rw [numberedLines, List.getElem?_mapIdx, Option.map_eq_some_iff] at hline
    obtain ⟨source, hsource, rfl⟩ := hline
    refine ⟨String.ofList source, ?_, rfl⟩
    rw [String.toList_ofList]
    exact Text.newline_notMem_of_mem_lines (List.mem_of_getElem? hsource)
  · have hmap := congrArg (List.map (· ++ "\n")) (map_afterTab_numberedLines text)
    rw [List.map_map, List.map_map] at hmap
    rw [← Text.unlines_lines, ← join_newline]
    exact congrArg String.join hmap

theorem Lists.lines_eq (h : Lists text lines) :
    (lines.map fun line => (afterTab line).toList) = Text.lines text.toList := by
  apply Text.eq_of_unlines_eq
  · intro source hsource
    obtain ⟨line, hline, rfl⟩ := List.mem_map.mp hsource
    obtain ⟨k, hk⟩ := List.mem_iff_getElem?.mp hline
    obtain ⟨inner, hinner, rfl⟩ := h.numbered k line hk
    rwa [afterTab_numberField]
  · exact fun line hline => Text.newline_notMem_of_mem_lines hline
  · apply String.ofList_injective
    rw [Text.unlines_lines, ← h.restored, ← join_newline, List.map_map]
    simp only [Function.comp_def, String.ofList_toList]

/-- Only one list of lines lists a text. -/
theorem Lists.eq_numberedLines (h : Lists text lines) : lines = numberedLines text := by
  apply List.ext_getElem?
  intro k
  rw [numberedLines, ← h.lines_eq, List.getElem?_mapIdx, List.getElem?_map, Option.map_map]
  cases hline : lines[k]? with
  | none => rfl
  | some line =>
    obtain ⟨source, -, rfl⟩ := h.numbered k line hline
    simp [afterTab_numberField]

theorem programLines_eq (program : ProgramText) :
    programLines program = (header program :: numberedLines program.text).map (· ++ "\n") := by
  rw [programLines, sourceLines_eq]
  rfl

/-- A program listing loses nothing but the way lines end. Each text has one list of numbered lines
from which it can be read off, and none when it is empty; a listing writes a header and these lines
for every text of a program, in order, before the arguments. -/
theorem listing_restores_program :
    (∀ text lines, Lists text lines ↔ lines = numberedLines text) ∧ numberedLines "" = [] ∧
      ∀ program w, write program w =
        String.join ((program.flatMap fun p => header p :: numberedLines p.text).map (· ++ "\n")) ++
          String.join (argumentLines w) := by
  refine ⟨fun text lines => ⟨Lists.eq_numberedLines, ?_⟩, rfl, ?_⟩
  · rintro rfl
    exact lists_numberedLines text
  · intro program w
    rw [write, funext programLines_eq, String.join_append, List.map_flatMap]

-- Blank lines, tabs, and carriage returns alone, doubled and last.
example :
    numberedLines "a\tb\r\n\n\r\r\nc\r" =
      ["     1\ta\tb", "     2\t", "     3\t\r", "     4\tc\r"] := by
  decide +kernel

end Listing
end AwkStartup
