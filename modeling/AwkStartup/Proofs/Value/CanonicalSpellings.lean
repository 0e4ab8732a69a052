import AwkStartup.Proofs.Value.Subscripts

/-!
# Canonical spellings of integers

Every integer has one canonical decimal spelling, and that is how it is written. The texts that are
kept as integers are these spellings, as far as 64 bits reach. So subscripts encode texts: no two
texts share one, and none is lost.
-/

namespace AwkStartup
namespace Subscript

/-- Digits spell a number canonically: a single digit spells its value, and one more digit may
follow the digits of a positive number. -/
inductive SpellsNat : List Char → Nat → Prop
  | single {c : Char} : Leading.isDigit c = true → SpellsNat [c] (Leading.digitValue c)
  | snoc {digits : List Char} {n : Nat} {c : Char} : SpellsNat digits n → 0 < n →
      Leading.isDigit c = true → SpellsNat (digits ++ [c]) (10 * n + Leading.digitValue c)

/-- The canonical decimal spelling of an integer has a sign only if the integer is negative. -/
inductive Spells : List Char → Int → Prop
  | natural {digits : List Char} {n : Nat} : SpellsNat digits n → Spells digits n
  | negative {digits : List Char} {n : Nat} : SpellsNat digits n → 0 < n →
      Spells ('-' :: digits) (-n)

theorem isDigit_digitChar {d : Nat} (h : d < 10) : Leading.isDigit d.digitChar = true := by
  decide +revert

theorem digitValue_digitChar {d : Nat} (h : d < 10) : Leading.digitValue d.digitChar = d := by
  rw [Leading.digitValue, Nat.toNat_digitChar_of_lt_ten h]
  exact Nat.add_sub_cancel_left 48 d

section Digits

variable {digits : List Char} {n : Nat}

theorem SpellsNat.toDigits_eq (h : SpellsNat digits n) : Nat.toDigits 10 n = digits := by
  induction h with
  | single hc =>
    obtain ⟨hlt, hchar⟩ := digitChar_digitValue hc
    rw [Leading.digitValue, Nat.toDigits_of_lt_base hlt, hchar]
  | snoc _ hpos hc ih =>
    obtain ⟨hlt, hchar⟩ := digitChar_digitValue hc
    rw [Leading.digitValue, ← Nat.toDigits_append_toDigits (by omega) hpos hlt, ih,
      Nat.toDigits_of_lt_base hlt, hchar]

theorem spellsNat_toDigits (n : Nat) : SpellsNat (Nat.toDigits 10 n) n := by
  induction n using Nat.strongRecOn with
  | ind n ih =>
    by_cases hn : n < 10
    · have hsingle := SpellsNat.single (isDigit_digitChar hn)
      rwa [digitValue_digitChar hn, ← Nat.toDigits_of_lt_base hn] at hsingle
    · have hmod : n % 10 < 10 := Nat.mod_lt n (by omega)
      have hsnoc := SpellsNat.snoc (ih (n / 10) (by omega)) (by omega) (isDigit_digitChar hmod)
      rw [digitValue_digitChar hmod, Nat.div_add_mod] at hsnoc
      rwa [Nat.toDigits_eq_if (by omega), if_neg hn]

theorem SpellsNat.ne_nil (h : SpellsNat digits n) : digits ≠ [] := by
  cases h with
  | single => simp
  | snoc => simp

theorem SpellsNat.isDigit (h : SpellsNat digits n) : ∀ c ∈ digits, Leading.isDigit c = true := by
  induction h with
  | single hc => simpa using hc
  | snoc _ _ hc ih =>
    intro d hd
    rcases List.mem_append.mp hd with hbefore | hlast
    · exact ih d hbefore
    · rwa [List.mem_singleton.mp hlast]

theorem SpellsNat.head?_ne_zero (h : SpellsNat digits n) (hn : 0 < n) : digits.head? ≠ some '0' := by
  induction h with
  | single hc =>
    intro hzero
    obtain rfl := Option.some.inj hzero
    exact absurd hn (by decide)
  | snoc hbefore hpos _ ih =>
    rw [List.head?_append_of_ne_nil _ hbefore.ne_nil]
    exact ih hpos

theorem SpellsNat.isCanonicalDigits (h : SpellsNat digits n) :
    Subscript.isCanonicalDigits digits = true := by
  refine isCanonicalDigits_iff.mpr ⟨h.ne_nil, h.isDigit, ?_⟩
  by_cases hn : 0 < n
  · exact Or.inr (h.head?_ne_zero hn)
  · obtain rfl : n = 0 := by omega
    exact Or.inl h.toDigits_eq.symm

theorem SpellsNat.ofDigitChars_eq (h : SpellsNat digits n) : Nat.ofDigitChars 10 digits 0 = n := by
  rw [← h.toDigits_eq, Nat.ofDigitChars_toDigits (by omega) le_rfl]

end Digits

variable {s : List Char} {n : Int}

theorem Spells.exists_cons (h : Spells s n) :
    ∃ c t, s = c :: t ∧ (c = '-' ∨ Leading.isDigit c = true) ∧
      ∀ d ∈ t, Leading.isDigit d = true := by
  cases h with
  | natural hdigits =>
    obtain ⟨c, t, rfl⟩ := List.exists_cons_of_ne_nil hdigits.ne_nil
    obtain ⟨hc, ht⟩ := List.forall_mem_cons.mp hdigits.isDigit
    exact ⟨c, t, rfl, Or.inr hc, ht⟩
  | negative hdigits _ => exact ⟨'-', _, rfl, Or.inl rfl, hdigits.isDigit⟩

theorem Spells.eq_or_isDigit (h : Spells s n) {c : Char} (hc : c ∈ s) :
    c = '-' ∨ Leading.isDigit c = true := by
  obtain ⟨first, t, rfl, hfirst, ht⟩ := h.exists_cons
  rcases List.mem_cons.mp hc with rfl | hlater
  · exact hfirst
  · exact Or.inr (ht c hlater)

theorem Spells.notMem (h : Spells s n) {c : Char}
    (hc : ¬(c = '-' ∨ Leading.isDigit c = true)) : c ∉ s :=
  fun hmem => hc (h.eq_or_isDigit hmem)

theorem Spells.toString_eq (h : Spells s n) : toString n = String.ofList s := by
  cases h with
  | natural hdigits =>
    rw [← hdigits.toDigits_eq, ← Nat.repr_eq_ofList_toDigits]
    rfl
  | negative hdigits hpos =>
    rw [Int.toString_eq_repr, Int.repr_eq_if, if_neg (by omega), neg_neg, Int.toNat_natCast,
      Nat.repr_eq_ofList_toDigits, hdigits.toDigits_eq, String.ofList_cons]
    rfl

theorem exists_spells (n : Int) : ∃ s, Spells s n := by
  rcases Int.eq_nat_or_neg n with ⟨m, rfl | rfl⟩
  · exact ⟨_, .natural (spellsNat_toDigits m)⟩
  · rcases Nat.eq_zero_or_pos m with rfl | hpos
    · exact ⟨_, .natural (spellsNat_toDigits 0)⟩
    · exact ⟨_, .negative (spellsNat_toDigits m) hpos⟩

theorem spells_iff_toString : Spells s n ↔ String.ofList s = toString n := by
  constructor
  · intro h
    exact h.toString_eq.symm
  · intro h
    obtain ⟨spelling, hspelling⟩ := exists_spells n
    have hsame : spelling = s := String.ofList_injective (hspelling.toString_eq.symm.trans h.symm)
    rwa [← hsame]

theorem inRange_of_canonicalInt? (h : canonicalInt? s = some n) : InRange n := by
  unfold canonicalInt? at h
  dsimp only at h
  split_ifs at h with _ hrange
  · rwa [← Option.some.inj h]
  · rwa [← Option.some.inj h]

theorem SpellsNat.canonicalInt?_eq {digits : List Char} {m : Nat} (h : SpellsNat digits m) :
    canonicalInt? digits = if InRange m then some (m : Int) else none := by
  have hsign : ∀ rest, digits ≠ '-' :: rest := by
    rintro rest rfl
    have hdigit := h.isDigit '-' List.mem_cons_self
    cases hdigit
  have hne : digits ≠ ['-', '0'] := hsign ['0']
  unfold canonicalInt?
  split
  · rename_i heq
    split at heq
    · exact absurd rfl (hsign _)
    · cases heq
      rw [if_pos ⟨h.isCanonicalDigits, hne⟩, h.ofDigitChars_eq]
      rfl

theorem SpellsNat.canonicalInt?_negative {digits : List Char} {m : Nat} (h : SpellsNat digits m)
    (hpos : 0 < m) :
    canonicalInt? ('-' :: digits) = if InRange (-m) then some (-m : Int) else none := by
  have hne : '-' :: digits ≠ ['-', '0'] := by
    intro heq
    obtain rfl := (List.cons.inj heq).2
    exact h.head?_ne_zero hpos rfl
  change (if Subscript.isCanonicalDigits digits = true ∧ '-' :: digits ≠ ['-', '0'] then
      if InRange (-(Nat.ofDigitChars 10 digits 0 : Int)) then
        some (-(Nat.ofDigitChars 10 digits 0 : Int))
      else none
    else none) = _
  rw [if_pos ⟨h.isCanonicalDigits, hne⟩, h.ofDigitChars_eq]

/-- The texts that are kept as integers are the canonical spellings within 64 bits. -/
theorem canonicalInt?_eq_some_iff : canonicalInt? s = some n ↔ Spells s n ∧ InRange n := by
  constructor
  · intro h
    exact ⟨spells_iff_toString.mpr (toString_of_canonicalInt? h).symm, inRange_of_canonicalInt? h⟩
  · rintro ⟨hspells, hrange⟩
    cases hspells with
    | natural hdigits => rw [hdigits.canonicalInt?_eq, if_pos hrange]
    | negative hdigits hpos => rw [hdigits.canonicalInt?_negative hpos, if_pos hrange]

theorem ofText_eq_int_iff {s : String} {n : Int} :
    ofText s = int n ↔ Spells s.toList n ∧ InRange n := by
  rw [← canonicalInt?_eq_some_iff, ofText]
  cases canonicalInt? s.toList with
  | none => simp
  | some m => simp

theorem ofText_eq_text_iff {s t : String} :
    ofText s = text t ↔ s = t ∧ ∀ n, ¬ (Spells s.toList n ∧ InRange n) := by
  simp only [← canonicalInt?_eq_some_iff]
  rw [ofText]
  cases canonicalInt? s.toList with
  | none => simp
  | some m => simp

theorem spells_toList_iff {s : String} {n : Int} : Spells s.toList n ↔ s = toString n := by
  rw [spells_iff_toString, String.ofList_toList]

theorem ofSlice_eq (s : String.Slice) : ofSlice s = ofText s.copy := by
  rw [ofSlice, ofText, String.Slice.toList_chars]

/-- Subscripts encode texts. A text is kept as an integer exactly when it is the canonical decimal
spelling of that integer and 64 bits hold it, and the canonical spelling of an integer is how it is
written. Every subscript made from a text is written as that text, every integer of 64 bits is read
back from how it is written, and so different texts have different subscripts. No subscript that is a
text spells an integer of 64 bits. A part of a text and a copy of it denote the same. -/
theorem subscripts_encode_texts :
    (∀ (s : String) (n : Int), ofText s = int n ↔ Spells s.toList n ∧ InRange n) ∧
      (∀ (s : String) (n : Int), Spells s.toList n ↔ s = toString n) ∧
      (∀ s : String, ofText s = text s ↔ ∀ n, InRange n → s ≠ toString n) ∧
      (∀ s : String, (ofText s).display = s) ∧
      (∀ n, InRange n → ofText (int n).display = int n) ∧
      Function.Injective ofText ∧
      (∀ s t : String, ofText s = text t → ∀ n, InRange n → t ≠ toString n) ∧
      ∀ s : String.Slice, ofSlice s = ofText s.copy := by
  refine ⟨fun s n => ofText_eq_int_iff, fun s n => spells_toList_iff, ?_, display_ofText, ?_,
    ofText_injective, ?_, ofSlice_eq⟩
  · intro s
    rw [ofText_eq_text_iff]
    constructor
    · rintro ⟨-, hnone⟩ n hrange hs
      exact hnone n ⟨spells_toList_iff.mpr hs, hrange⟩
    · intro hnone
      refine ⟨rfl, ?_⟩
      rintro n ⟨hspells, hrange⟩
      exact hnone n hrange (spells_toList_iff.mp hspells)
  · intro n hrange
    exact ofText_eq_int_iff.mpr ⟨spells_toList_iff.mpr rfl, hrange⟩
  · intro s t h n hrange ht
    obtain ⟨rfl, hnone⟩ := ofText_eq_text_iff.mp h
    exact hnone n ⟨spells_toList_iff.mpr ht, hrange⟩

-- The least integer of 64 bits, one below it, and texts that only look like integers.
example :
    ["-9223372036854775808", "-9223372036854775809", "-0", "007", "-", ""].map ofText =
      [.int (-9223372036854775808), .text "-9223372036854775809", .text "-0", .text "007",
        .text "-", .text ""] := by
  decide +kernel

end Subscript
end AwkStartup
