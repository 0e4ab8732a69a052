import AwkStartup.Proofs.Number.LeadingInteger
import AwkStartup.Proofs.Number.Numerals
import Mathlib.Tactic

/-!
# The longest integer in front of a text

Blanks, at most one sign and digits denote an integer. Every text starts with a longest part of that
form, perhaps an empty one, and the integer of the text is the one that this part denotes.
-/

namespace AwkStartup
namespace Leading

/-- Blanks, at most one sign and digits, and the integer they denote. Without digits it is zero. -/
inductive Denotes : List Char → Int → Prop
  | unsigned {blanks digits} : Text.IsBlankText blanks → Numeral.IsDigits digits →
      Denotes (blanks ++ digits) (Nat.ofDigitChars 10 digits 0)
  | plus {blanks digits} : Text.IsBlankText blanks → Numeral.IsDigits digits →
      Denotes (blanks ++ '+' :: digits) (Nat.ofDigitChars 10 digits 0)
  | minus {blanks digits} : Text.IsBlankText blanks → Numeral.IsDigits digits →
      Denotes (blanks ++ '-' :: digits) (-Nat.ofDigitChars 10 digits 0)

/-- A part in front of a text that denotes an integer, when no longer part denotes one. -/
structure Leads (s front : List Char) (n : Int) : Prop where
  isPrefix : front <+: s
  denotes : Denotes front n
  longest : ∀ other m, other <+: s → Denotes other m → other.length ≤ front.length

def signedDigits : List Char → List Char
  | '-' :: rest => '-' :: rest.takeWhile isDigit
  | '+' :: rest => '+' :: rest.takeWhile isDigit
  | rest => rest.takeWhile isDigit

/-- The part of a text that its integer is read from. -/
def leadingPart (s : List Char) : List Char :=
  s.takeWhile Text.isBlank ++ signedDigits (s.dropWhile Text.isBlank)

variable {s front blanks digits : List Char} {n : Int}

section Parts

theorem decimal_append (hblanks : Text.IsBlankText blanks) (s : List Char) :
    decimal (blanks ++ s) = decimal s := by
  rw [decimal, List.dropWhile_append_of_pos hblanks, decimal]

theorem leadingPart_append (hblanks : Text.IsBlankText blanks) (s : List Char) :
    leadingPart (blanks ++ s) = blanks ++ leadingPart s := by
  rw [leadingPart, List.takeWhile_append_of_pos hblanks, List.dropWhile_append_of_pos hblanks,
    List.append_assoc, leadingPart]

theorem signedDigits_of_isUnsigned (h : IsUnsigned s) : signedDigits s = s.takeWhile isDigit := by
  unfold signedDigits
  split
  · exact absurd rfl h.1
  · exact absurd rfl h.2
  · rfl

theorem dropWhile_isBlank_digit {c : Char} (h : isDigit c = true) (s : List Char) :
    (c :: s).dropWhile Text.isBlank = c :: s ∧ IsUnsigned (c :: s) := by
  have hblank := Numeral.isBlank_of_isDigit h
  refine ⟨List.dropWhile_cons_of_neg (by simp [hblank]), ?_, ?_⟩
  · intro hminus
    obtain rfl := Option.some.inj hminus
    cases h
  · intro hplus
    obtain rfl := Option.some.inj hplus
    cases h

theorem decimal_digit {c : Char} (h : isDigit c = true) (s : List Char) :
    decimal (c :: s) = natural (c :: s) := by
  obtain ⟨hdrop, hunsigned⟩ := dropWhile_isBlank_digit h s
  rw [decimal_of_isUnsigned (by rwa [hdrop]), hdrop]

theorem leadingPart_digit {c : Char} (h : isDigit c = true) (s : List Char) :
    leadingPart (c :: s) = (c :: s).takeWhile isDigit := by
  obtain ⟨hdrop, hunsigned⟩ := dropWhile_isBlank_digit h s
  have hblank := Numeral.isBlank_of_isDigit h
  rw [leadingPart, List.takeWhile_cons_of_neg (by simp [hblank]), hdrop, List.nil_append,
    signedDigits_of_isUnsigned hunsigned]

theorem natural_of_isDigits (hdigits : Numeral.IsDigits digits) :
    natural digits = Nat.ofDigitChars 10 digits 0 := by
  rw [natural, List.takeWhile_eq_self_iff.mpr hdigits]

end Parts

section Denoting

theorem Denotes.decimal_eq (h : Denotes front n) : decimal front = n := by
  cases h with
  | @unsigned blanks digits hblanks hdigits =>
    rw [decimal_append hblanks, ← natural_of_isDigits hdigits]
    cases digits with
    | nil => rfl
    | cons c digits => exact decimal_digit (hdigits c List.mem_cons_self) digits
  | @plus blanks digits hblanks hdigits =>
    rw [decimal_append hblanks, ← natural_of_isDigits hdigits]
    rfl
  | @minus blanks digits hblanks hdigits =>
    rw [decimal_append hblanks, ← natural_of_isDigits hdigits]
    rfl

theorem denotes_leadingPart (s : List Char) : Denotes (leadingPart s) (decimal s) := by
  have hblanks : Text.IsBlankText (s.takeWhile Text.isBlank) := fun c hc => List.mem_takeWhile_imp hc
  have hdigits (t : List Char) : Numeral.IsDigits (t.takeWhile isDigit) :=
    fun c hc => List.mem_takeWhile_imp hc
  rcases sign_cases (s.dropWhile Text.isBlank) with ⟨rest, hs⟩ | ⟨rest, hs⟩ | hs
  · rw [leadingPart, decimal, hs]
    exact .minus hblanks (hdigits rest)
  · rw [leadingPart, decimal, hs]
    exact .plus hblanks (hdigits rest)
  · rw [leadingPart, decimal_of_isUnsigned hs, signedDigits_of_isUnsigned hs]
    exact .unsigned hblanks (hdigits _)

theorem signedDigits_isPrefix (s : List Char) : signedDigits s <+: s := by
  unfold signedDigits
  split
  · exact List.cons_prefix_cons.mpr ⟨rfl, List.takeWhile_prefix _⟩
  · exact List.cons_prefix_cons.mpr ⟨rfl, List.takeWhile_prefix _⟩
  · exact List.takeWhile_prefix _

theorem leadingPart_isPrefix (s : List Char) : leadingPart s <+: s := by
  have hsplit := List.takeWhile_append_dropWhile (p := Text.isBlank) (l := s)
  have hsigned := (List.prefix_append_right_inj (s.takeWhile Text.isBlank)).mpr
    (signedDigits_isPrefix (s.dropWhile Text.isBlank))
  rwa [hsplit] at hsigned

theorem Denotes.isPrefix_leadingPart (h : Denotes front n) (rest : List Char) :
    front <+: leadingPart (front ++ rest) := by
  cases h with
  | @unsigned blanks digits hblanks hdigits =>
    rw [List.append_assoc, leadingPart_append hblanks, List.prefix_append_right_inj]
    cases digits with
    | nil => exact List.nil_prefix
    | cons c digits =>
      rw [List.cons_append, leadingPart_digit (hdigits c List.mem_cons_self), ← List.cons_append,
        List.takeWhile_append_of_pos hdigits]
      exact List.prefix_append _ _
  | @plus blanks digits hblanks hdigits =>
    rw [List.append_assoc, leadingPart_append hblanks, List.prefix_append_right_inj]
    change _ <+: '+' :: (digits ++ rest).takeWhile isDigit
    rw [List.takeWhile_append_of_pos hdigits]
    exact List.prefix_append _ _
  | @minus blanks digits hblanks hdigits =>
    rw [List.append_assoc, leadingPart_append hblanks, List.prefix_append_right_inj]
    change _ <+: '-' :: (digits ++ rest).takeWhile isDigit
    rw [List.takeWhile_append_of_pos hdigits]
    exact List.prefix_append _ _

/-- The part that is read is the longest one, and the only one. -/
theorem leads_iff : Leads s front n ↔ front = leadingPart s ∧ n = decimal s := by
  constructor
  · rintro ⟨⟨rest, rfl⟩, hdenotes, hlongest⟩
    -- What leads is part of what is read, and cannot be shorter.
    have hpart := denotes_leadingPart (front ++ rest)
    have hfront : front = leadingPart (front ++ rest) :=
      (hdenotes.isPrefix_leadingPart rest).eq_of_length_le
        (hlongest _ _ (leadingPart_isPrefix _) hpart)
    rw [← hfront] at hpart
    exact ⟨hfront, by rw [← hdenotes.decimal_eq, hpart.decimal_eq]⟩
  · rintro ⟨rfl, rfl⟩
    refine ⟨leadingPart_isPrefix s, denotes_leadingPart s, ?_⟩
    rintro other m ⟨rest, rfl⟩ hdenotes
    exact (hdenotes.isPrefix_leadingPart rest).length_le

end Denoting

end Leading
end AwkStartup
