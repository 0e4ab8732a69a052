import AwkStartup.Number.Leading
import AwkStartup.Proofs.Text.Runs
import Mathlib.Tactic

/-!
# The integer at the front of a text, without cuts

Cutting off the sign and negating always succeed, so `integer?` is the total function `integer`. It
saturates at every digit, and that is the same as reading all the digits and saturating once. It
reads nothing beyond the first comma.
-/

namespace AwkStartup
namespace Leading

def integer (s : List Char) : Int :=
  match s.dropWhile Text.isBlank with
  | '-' :: rest => -digits rest
  | '+' :: rest => digits rest
  | rest => digits rest

section Digits

/-- The value of the digits at the front of a text, however many there are. -/
def natural (s : List Char) : Nat :=
  Nat.ofDigitChars 10 (s.takeWhile isDigit) 0

theorem push_min_limit (n : Nat) (c : Char) :
    push (min n limit) c = min ((10 * n + digitValue c : Nat) : Int) limit := by
  unfold push limit
  omega

/-- Saturating at every digit is saturating once at the end. -/
theorem foldl_push_eq_min (s : List Char) (n : Nat) :
    s.foldl push (min n limit) = min (Nat.ofDigitChars 10 s n : Int) limit := by
  induction s generalizing n with
  | nil => rfl
  | cons c s ih =>
    rw [List.foldl_cons, push_min_limit, ih, Nat.ofDigitChars_cons]
    rfl

theorem digits_eq_min (s : List Char) : digits s = min (natural s : Int) limit :=
  foldl_push_eq_min (s.takeWhile isDigit) 0

theorem negate?_digits (s : List Char) : negate? (digits s) = some (-digits s) := by
  have h := digits_eq_min s
  unfold negate? limit at *
  rw [if_pos (by omega)]

end Digits

section Signs

variable {s : List Char}

def IsUnsigned (s : List Char) : Prop :=
  s.head? ≠ some '-' ∧ s.head? ≠ some '+'

theorem sign_cases (s : List Char) :
    (∃ rest, s = '-' :: rest) ∨ (∃ rest, s = '+' :: rest) ∨ IsUnsigned s := by
  by_cases hminus : s.head? = some '-'
  · exact Or.inl (List.head?_eq_some_iff.mp hminus)
  · by_cases hplus : s.head? = some '+'
    · exact Or.inr (Or.inl (List.head?_eq_some_iff.mp hplus))
    · exact Or.inr (Or.inr ⟨hminus, hplus⟩)

theorem integer_of_isUnsigned (h : IsUnsigned (s.dropWhile Text.isBlank)) :
    integer s = digits (s.dropWhile Text.isBlank) := by
  unfold integer
  split
  · next hs => exact absurd (congrArg List.head? hs) h.1
  · next hs => exact absurd (congrArg List.head? hs) h.2
  · rfl

theorem dropBytes?_sign {c : Char} (h : c.utf8Size = 1) (rest : List Char) :
    Text.dropBytes? 1 (c :: rest) = some rest := by
  rw [Text.dropBytes?, if_pos (by omega), h]
  exact Text.dropBytes?_zero rest

theorem integer?_eq_some (text : String) : integer? text = some (integer text.toList) := by
  unfold integer?
  dsimp only
  split
  · next h =>
    obtain ⟨rest, hs⟩ := List.head?_eq_some_iff.mp h
    rw [integer, hs, dropBytes?_sign (by decide)]
    exact negate?_digits rest
  · next h =>
    obtain ⟨rest, hs⟩ := List.head?_eq_some_iff.mp h
    rw [integer, hs, dropBytes?_sign (by decide)]
    rfl
  · next hminus hplus =>
    rw [integer_of_isUnsigned ⟨hminus, hplus⟩]

end Signs

section Commas

theorem digits_append_comma (s t : List Char) : digits (s ++ ',' :: t) = digits s := by
  rw [digits, digits, Text.takeWhile_append_stop (by decide)]

theorem integer_append_comma (s t : List Char) : integer (s ++ ',' :: t) = integer s := by
  have hcomma : Text.isBlank ',' = false := by decide
  unfold integer
  rw [List.dropWhile_append]
  split_ifs with hblank
  · rw [List.isEmpty_iff.mp hblank, List.dropWhile_cons_of_neg (by simp [hcomma])]
    rfl
  · cases hs : s.dropWhile Text.isBlank with
    | nil => simp [hs] at hblank
    | cons c rest =>
      by_cases hminus : c = '-'
      · subst hminus
        simp [digits_append_comma]
      · by_cases hplus : c = '+'
        · subst hplus
          simp [digits_append_comma]
        · have h := digits_append_comma (c :: rest) t
          simpa [hminus, hplus] using h

end Commas

section Saturation

/-- The integer that a text starts with, however large: blanks, one sign and digits. -/
def decimal (s : List Char) : Int :=
  match s.dropWhile Text.isBlank with
  | '-' :: rest => -natural rest
  | '+' :: rest => natural rest
  | rest => natural rest

theorem decimal_of_isUnsigned {s : List Char} (h : IsUnsigned (s.dropWhile Text.isBlank)) :
    decimal s = natural (s.dropWhile Text.isBlank) := by
  unfold decimal
  split
  · next hs => exact absurd (congrArg List.head? hs) h.1
  · next hs => exact absurd (congrArg List.head? hs) h.2
  · rfl

/-- The integer that a text starts with, kept within 64 bits on both sides of zero alike. -/
def saturated (s : List Char) : Int :=
  max (-limit) (min (decimal s) limit)

theorem integer_eq_saturated (s : List Char) : integer s = saturated s := by
  unfold integer saturated decimal
  split
  all_goals
    rw [digits_eq_min]
    unfold limit
    omega

theorem abs_integer_le_limit (s : List Char) : -limit ≤ integer s ∧ integer s ≤ limit := by
  rw [integer_eq_saturated]
  exact ⟨le_max_left _ _, max_le (by decide) (min_le_right _ _)⟩

end Saturation

end Leading
end AwkStartup
