import Mathlib.Tactic.SplitIfs
import AwkStartup.Text.Split

/-!
# Lines and the text they come from

Lines that are each ended by a newline give back the text they were split from, except that a
carriage return before a newline is gone and that the last line has its newline. Lines without
newlines are the only ones that do.
-/

namespace AwkStartup
namespace Text

variable {c : Char} {s line : List Char} {ls ms : List (List Char)}

/-- A text with a newline for each carriage return and newline. -/
def unixNewlines : List Char → List Char
  | [] => []
  | '\r' :: '\n' :: s => '\n' :: unixNewlines s
  | c :: s => c :: unixNewlines s

/-- A text whose last line has its newline, if there is one. -/
def withFinalNewline (s : List Char) : List Char :=
  if s = [] ∨ s.getLast? = some '\n' then s else s ++ ['\n']

def unlines (ls : List (List Char)) : List Char :=
  ls.flatMap (· ++ ['\n'])

theorem unlines_cons (line : List Char) (ls : List (List Char)) :
    unlines (line :: ls) = line ++ '\n' :: unlines ls := by
  simp [unlines]

section RoundTrip

theorem withFinalNewline_cons (hne : s ≠ []) :
    withFinalNewline (c :: s) = c :: withFinalNewline s := by
  obtain ⟨d, s, rfl⟩ := List.exists_cons_of_ne_nil hne
  unfold withFinalNewline
  rw [List.getLast?_cons_cons]
  split_ifs <;> simp_all

theorem withFinalNewline_newline_cons (s : List Char) :
    withFinalNewline ('\n' :: s) = '\n' :: withFinalNewline s := by
  by_cases hnil : s = []
  · rw [hnil]
    rfl
  · exact withFinalNewline_cons hnil

theorem unixNewlines_ne_nil (hne : s ≠ []) : unixNewlines s ≠ [] := by
  fun_cases unixNewlines s <;> simp_all

theorem lines_eq_nil_iff : lines s = [] ↔ s = [] := by
  fun_cases lines s <;> simp

theorem unlines_lines (s : List Char) : unlines (lines s) = withFinalNewline (unixNewlines s) := by
  fun_induction lines s with
  | case1 => rfl
  | case2 s ih =>
    have hunix : unixNewlines ('\n' :: s) = '\n' :: unixNewlines s := by
      rw [unixNewlines]
      nofun
    rw [unlines_cons, ih, hunix, withFinalNewline_newline_cons, List.nil_append]
  | case3 s ih =>
    rw [unlines_cons, ih, unixNewlines, withFinalNewline_newline_cons, List.nil_append]
  | case4 c s hnewline hreturn hnil ih =>
    obtain rfl := lines_eq_nil_iff.mp hnil
    have hlast : ¬c = '\n' := hnewline
    simp [unlines, unixNewlines, withFinalNewline, hlast]
  | case5 c s hnewline hreturn line rest hlines ih =>
    have hne : s ≠ [] := by
      rintro rfl
      cases hlines
    rw [hlines] at ih
    rw [unixNewlines, withFinalNewline_cons (unixNewlines_ne_nil hne), ← ih, unlines_cons,
      unlines_cons, List.cons_append]
    exact hreturn

theorem newline_notMem_of_mem_lines (h : line ∈ lines s) : '\n' ∉ line := by
  fun_induction lines s generalizing line with
  | case1 => cases h
  | case2 s ih =>
    rcases List.mem_cons.mp h with rfl | hlater
    · exact List.not_mem_nil
    · exact ih hlater
  | case3 s ih =>
    rcases List.mem_cons.mp h with rfl | hlater
    · exact List.not_mem_nil
    · exact ih hlater
  | case4 c s hnewline hreturn hnil ih =>
    obtain rfl := List.mem_singleton.mp h
    rw [List.mem_singleton]
    exact Ne.symm hnewline
  | case5 c s hnewline hreturn first rest hlines ih =>
    rw [hlines] at ih
    rcases List.mem_cons.mp h with rfl | hlater
    · rw [List.mem_cons, not_or]
      exact ⟨Ne.symm hnewline, ih List.mem_cons_self⟩
    · exact ih (List.mem_cons_of_mem _ hlater)

end RoundTrip

/-- Lines without newlines are determined by their text. -/
theorem eq_of_unlines_eq (hls : ∀ line ∈ ls, '\n' ∉ line) (hms : ∀ line ∈ ms, '\n' ∉ line)
    (h : unlines ls = unlines ms) : ls = ms := by
  induction ls generalizing ms with
  | nil =>
    cases ms with
    | nil => rfl
    | cons other ms => simp [unlines] at h
  | cons line ls ih =>
    cases ms with
    | nil => simp [unlines] at h
    | cons other ms =>
      rw [unlines_cons, unlines_cons] at h
      have hsplit := splitAtFirst?_append (hls line List.mem_cons_self) (unlines ls)
      rw [h, splitAtFirst?_append (hms other List.mem_cons_self)] at hsplit
      obtain ⟨rfl, hrest⟩ := Prod.mk.inj (Option.some.inj hsplit)
      rw [ih (fun l hl => hls l (List.mem_cons_of_mem _ hl))
        (fun l hl => hms l (List.mem_cons_of_mem _ hl)) hrest.symm]

end Text
end AwkStartup
