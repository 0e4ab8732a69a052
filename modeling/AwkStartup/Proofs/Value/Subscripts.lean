import AwkStartup.Value.Subscript
import Mathlib.Tactic

/-!
# Subscripts and the texts they stand for

A text that is kept as an integer is the only way to write that integer, so a subscript never
forgets the text it was made from and different texts name different elements.
-/

namespace AwkStartup
namespace Subscript

theorem digitChar_digitValue {c : Char} (h : Leading.isDigit c = true) :
    c.toNat - '0'.toNat < 10 ∧ (c.toNat - '0'.toNat).digitChar = c := by
  obtain ⟨hlow, hhigh⟩ := Leading.isDigit_iff_toNat.mp h
  have hzero : '0'.toNat = 48 := rfl
  have hlt : c.toNat - '0'.toNat < 10 := by omega
  refine ⟨hlt, Char.toNat_inj.mp ?_⟩
  rw [Nat.toNat_digitChar_of_lt_ten hlt]
  omega

theorem isCanonicalDigits_iff {digits : List Char} :
    isCanonicalDigits digits = true ↔
      digits ≠ [] ∧ (∀ c ∈ digits, Leading.isDigit c = true) ∧
        (digits = ['0'] ∨ digits.head? ≠ some '0') := by
  simp [isCanonicalDigits, and_assoc]

theorem isCanonicalDigits_of_append {digits : List Char} {c : Char} (hne : digits ≠ [])
    (h : isCanonicalDigits (digits ++ [c]) = true) :
    isCanonicalDigits digits = true ∧ digits ≠ ['0'] := by
  obtain ⟨-, hdigits, hhead⟩ := isCanonicalDigits_iff.mp h
  have hfirst : digits.head? ≠ some '0' := by
    rcases hhead with hzero | hfirst
    · cases digits with
      | nil => exact absurd rfl hne
      | cons d digits => simp at hzero
    · rwa [List.head?_append_of_ne_nil _ hne] at hfirst
  refine ⟨isCanonicalDigits_iff.mpr ⟨hne, ?_, Or.inr hfirst⟩, ?_⟩
  · intro d hd
    exact hdigits d (List.mem_append_left _ hd)
  · rintro rfl
    exact hfirst rfl

theorem ofDigitChars_pos {digits : List Char}
    (h : Nat.toDigits 10 (Nat.ofDigitChars 10 digits 0) = digits) (hne : digits ≠ ['0']) :
    0 < Nat.ofDigitChars 10 digits 0 := by
  rw [Nat.pos_iff_ne_zero]
  intro hzero
  rw [hzero, Nat.toDigits_zero] at h
  exact hne h.symm

theorem toDigits_ofDigitChars {digits : List Char} (h : isCanonicalDigits digits = true) :
    Nat.toDigits 10 (Nat.ofDigitChars 10 digits 0) = digits := by
  -- From the right, because the digits in front of the last are canonical again.
  induction digits using List.reverseRecOn with
  | nil => cases h
  | append_singleton digits c ih =>
    obtain ⟨-, hdigits, -⟩ := isCanonicalDigits_iff.mp h
    obtain ⟨hlt, hchar⟩ := digitChar_digitValue (hdigits c (by simp))
    rw [Nat.ofDigitChars_append, Nat.ofDigitChars_cons, Nat.ofDigitChars_nil]
    by_cases hne : digits = []
    · subst hne
      rw [Nat.ofDigitChars_nil, Nat.mul_zero, Nat.zero_add, Nat.toDigits_of_lt_base hlt, hchar]
      rfl
    · obtain ⟨hcanonical, hzero⟩ := isCanonicalDigits_of_append hne h
      have hspelled := ih hcanonical
      have hpos := ofDigitChars_pos hspelled hzero
      rw [← Nat.toDigits_append_toDigits (by omega) hpos hlt, hspelled,
        Nat.toDigits_of_lt_base hlt, hchar]

theorem repr_ofDigitChars {digits : List Char} (h : isCanonicalDigits digits = true) :
    (Nat.ofDigitChars 10 digits 0).repr = String.ofList digits := by
  rw [Nat.repr_eq_ofList_toDigits, toDigits_ofDigitChars h]

theorem canonicalInt?_cases {s : List Char} {n : Int} (h : canonicalInt? s = some n) :
    (isCanonicalDigits s = true ∧ n = Nat.ofDigitChars 10 s 0) ∨
      ∃ digits, s = '-' :: digits ∧ isCanonicalDigits digits = true ∧ digits ≠ ['0'] ∧
        n = -(Nat.ofDigitChars 10 digits 0 : Int) := by
  unfold canonicalInt? at h
  split at h
  rename_i negative digits hsign
  dsimp only at h
  split at h
  · rename_i hcanonical
    obtain ⟨hdigits, hne⟩ := hcanonical
    obtain ⟨-, hn⟩ := Option.ite_none_right_eq_some.mp h
    split at hsign
    · rename_i rest
      obtain ⟨rfl, rfl⟩ := Prod.mk.inj hsign
      refine Or.inr ⟨rest, rfl, hdigits, ?_, (Option.some.inj hn).symm⟩
      rintro rfl
      exact hne rfl
    · obtain ⟨rfl, rfl⟩ := Prod.mk.inj hsign
      exact Or.inl ⟨hdigits, (Option.some.inj hn).symm⟩
  · cases h

theorem toString_of_canonicalInt? {s : List Char} {n : Int} (h : canonicalInt? s = some n) :
    toString n = String.ofList s := by
  rcases canonicalInt?_cases h with ⟨hdigits, rfl⟩ | ⟨digits, rfl, hdigits, hne, rfl⟩
  · exact repr_ofDigitChars hdigits
  · have hpos := ofDigitChars_pos (toDigits_ofDigitChars hdigits) hne
    rw [Int.toString_eq_repr, Int.repr_eq_if, if_neg (by omega), neg_neg, Int.toNat_natCast,
      repr_ofDigitChars hdigits, String.ofList_cons]
    rfl

@[simp] theorem display_ofText (s : String) : (ofText s).display = s := by
  unfold ofText
  cases h : canonicalInt? s.toList with
  | none => rfl
  | some n =>
    rw [display, toString_of_canonicalInt? h, String.ofList_toList]

theorem ofText_injective : Function.Injective ofText := by
  intro s t h
  rw [← display_ofText s, h, display_ofText]

/-- Positions below `2 ^ 63` are kept as they are. -/
theorem ofIndex_eq_int {k : Nat} (h : k < 2 ^ 63) : ofIndex k = int k := by
  rw [ofIndex, Int.bmod_eq_of_le] <;> omega

end Subscript
end AwkStartup
