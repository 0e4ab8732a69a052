import Mathlib.Data.List.TakeWhile

/-!
# Runs at the front of a list

A run that is followed by an element which does not belong to it is taken and dropped as a whole,
and nothing behind that element counts.
-/

namespace AwkStartup
namespace Text

variable {α : Type} {p : α → Bool} {run rest : List α}

theorem takeWhile_append_of_run (hrun : ∀ a ∈ run, p a = true)
    (hstop : ∀ a, rest.head? = some a → p a = false) : (run ++ rest).takeWhile p = run := by
  rw [List.takeWhile_append_of_pos hrun]
  cases rest with
  | nil => simp
  | cons a rest => rw [List.takeWhile_cons_of_neg (by simp [hstop a rfl]), List.append_nil]

theorem takeWhile_append_stop {a : α} (h : p a = false) (s t : List α) :
    (s ++ a :: t).takeWhile p = s.takeWhile p := by
  rw [List.takeWhile_append]
  split_ifs with hlen
  · rw [List.takeWhile_cons_of_neg (by simp [h]), List.append_nil]
    exact ((List.takeWhile_prefix p).eq_of_length hlen).symm
  · rfl

theorem dropWhile_append_of_run (hrun : ∀ a ∈ run, p a = true)
    (hstop : ∀ a, rest.head? = some a → p a = false) : (run ++ rest).dropWhile p = rest := by
  rw [List.dropWhile_append_of_pos hrun]
  cases rest with
  | nil => rfl
  | cons a rest => rw [List.dropWhile_cons_of_neg (by simp [hstop a rfl])]

theorem eq_false_of_head?_dropWhile {a : α} (h : (rest.dropWhile p).head? = some a) :
    p a = false := by
  have hhead := List.head?_dropWhile_not p rest
  rw [h] at hhead
  exact hhead

end Text
end AwkStartup
