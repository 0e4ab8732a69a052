import AwkStartup.Number.Numeral
import AwkStartup.Proofs.Text.Runs
import Mathlib.Tactic

/-!
# The grammar of numerals

A numeral is a sign, a mantissa of digits around an optional point, and an optional exponent. The
texts that look like numbers are the numerals with blanks around them.
-/

namespace AwkStartup

namespace Text

def IsBlankText (s : List Char) : Prop :=
  ∀ c ∈ s, isBlank c = true

variable {before s after : List Char}

theorem exists_trimBlanks (s : List Char) :
    ∃ before after, IsBlankText before ∧ IsBlankText after ∧
      s = before ++ (trimBlanks s ++ after) := by
  have hleft := List.takeWhile_append_dropWhile (p := isBlank) (l := s)
  have hright := List.takeWhile_append_dropWhile (p := isBlank) (l := (s.dropWhile isBlank).reverse)
  refine ⟨s.takeWhile isBlank, ((s.dropWhile isBlank).reverse.takeWhile isBlank).reverse, ?_, ?_, ?_⟩
  · intro c hc
    exact List.mem_takeWhile_imp hc
  · intro c hc
    exact List.mem_takeWhile_imp (List.mem_reverse.mp hc)
  · rw [trimBlanks, ← List.reverse_append, hright, List.reverse_reverse, hleft]

theorem trimBlanks_append (hbefore : IsBlankText before) (hafter : IsBlankText after)
    (s : List Char) : trimBlanks (before ++ (s ++ after)) = trimBlanks s := by
  have hback : ∀ c ∈ after.reverse, isBlank c = true := by
    intro c hc
    exact hafter c (List.mem_reverse.mp hc)
  rw [trimBlanks, List.dropWhile_append_of_pos hbefore, List.dropWhile_append]
  split_ifs with hblank
  · have hnone : after.dropWhile isBlank = [] := List.dropWhile_eq_nil_iff.mpr hafter
    rw [hnone, trimBlanks, List.isEmpty_iff.mp hblank]
  · rw [List.reverse_append, List.dropWhile_append_of_pos hback, trimBlanks]

theorem trimBlanks_of_not_blank (hs : ∀ c ∈ s, isBlank c = false) : trimBlanks s = s := by
  have hkeep : ∀ t : List Char, (∀ c ∈ t, isBlank c = false) → t.dropWhile isBlank = t := by
    intro t ht
    rw [List.dropWhile_eq_self_iff]
    intro hpos
    simp [ht _ (List.getElem_mem hpos)]
  have hreverse : ∀ c ∈ s.reverse, isBlank c = false := by
    intro c hc
    exact hs c (List.mem_reverse.mp hc)
  rw [trimBlanks, hkeep s hs, hkeep s.reverse hreverse, List.reverse_reverse]

end Text

namespace Numeral

def IsDigits (s : List Char) : Prop :=
  ∀ c ∈ s, Leading.isDigit c = true

def IsSign (s : List Char) : Prop :=
  s = [] ∨ s = ['+'] ∨ s = ['-']

/-- Digits, or a point with digits on one side of it at least. -/
inductive IsMantissa : List Char → Prop
  | whole {digits} : IsDigits digits → digits ≠ [] → IsMantissa digits
  | point {whole fraction} : IsDigits whole → IsDigits fraction → (whole ≠ [] ∨ fraction ≠ []) →
      IsMantissa (whole ++ '.' :: fraction)

/-- Nothing, or a letter, perhaps a sign, and digits. -/
inductive IsExponent : List Char → Prop
  | nothing : IsExponent []
  | written {letter sign digits} : (letter = 'e' ∨ letter = 'E') → IsSign sign → IsDigits digits →
      digits ≠ [] → IsExponent (letter :: (sign ++ digits))

/-- A decimal numeral. -/
inductive IsNumeral : List Char → Prop
  | mk {sign mantissa exponent} : IsSign sign → IsMantissa mantissa → IsExponent exponent →
      IsNumeral (sign ++ (mantissa ++ exponent))

/-- A decimal numeral with blanks around it. -/
def LooksNumeric (text : String) : Prop :=
  ∃ before numeral after, Text.IsBlankText before ∧ Text.IsBlankText after ∧ IsNumeral numeral ∧
    text.toList = before ++ (numeral ++ after)

section Reading

variable {s : List Char}

/-- Whether a character can follow the digits and the point of a mantissa. -/
def StopsMantissa (s : List Char) : Prop :=
  ∀ c, s.head? = some c → Leading.isDigit c = false ∧ c ≠ '.'

theorem exists_sign (s : List Char) : ∃ sign, IsSign sign ∧ s = sign ++ (readSign s).2 := by
  unfold readSign
  split
  · exact ⟨['-'], Or.inr (Or.inr rfl), rfl⟩
  · exact ⟨['+'], Or.inr (Or.inl rfl), rfl⟩
  · exact ⟨[], Or.inl rfl, rfl⟩

theorem readSign_append {sign : List Char} (hsign : IsSign sign)
    (hs : ∀ c, s.head? = some c → c ≠ '+' ∧ c ≠ '-') : (readSign (sign ++ s)).2 = s := by
  rcases hsign with rfl | rfl | rfl
  · rw [List.nil_append]
    unfold readSign
    split
    · exact absurd rfl (hs '-' rfl).2
    · exact absurd rfl (hs '+' rfl).1
    · rfl
  · rfl
  · rfl

theorem isExponent_of_readExponent? (h : (readExponent? s).isSome = true) : IsExponent s := by
  cases s with
  | nil => exact .nothing
  | cons c s =>
    rw [readExponent?] at h
    by_cases hletter : c = 'e' ∨ c = 'E'
    · rw [if_pos hletter] at h
      by_cases hdigits : (readSign s).2 ≠ [] ∧ (readSign s).2.all Leading.isDigit
      · obtain ⟨hne, hall⟩ := hdigits
        obtain ⟨sign, hsign, hs⟩ := exists_sign s
        rw [hs]
        exact .written hletter hsign (List.all_eq_true.mp hall) hne
      · dsimp only at h
        rw [if_neg hdigits] at h
        cases h
    · rw [if_neg hletter] at h
      cases h

theorem readExponent?_of_isExponent (h : IsExponent s) : (readExponent? s).isSome = true := by
  cases h with
  | nothing => rfl
  | @written letter sign digits hletter hsign hdigits hne =>
    have hread : (readSign (sign ++ digits)).2 = digits := by
      apply readSign_append hsign
      intro c hc
      have hdigit := hdigits c (List.mem_of_head? hc)
      constructor
      · rintro rfl
        cases hdigit
      · rintro rfl
        cases hdigit
    rw [readExponent?, if_pos hletter]
    dsimp only
    rw [hread, if_pos ⟨hne, List.all_eq_true.mpr hdigits⟩]
    rfl

theorem stopsMantissa_of_isExponent (h : IsExponent s) : StopsMantissa s := by
  cases h with
  | nothing =>
    intro c hc
    cases hc
  | written hletter _ _ _ =>
    intro c hc
    obtain rfl := Option.some.inj hc
    rcases hletter with rfl | rfl
    · decide
    · decide

theorem exists_mantissa (s : List Char)
    (h : ¬(s.takeWhile Leading.isDigit = [] ∧
      (readFraction (s.dropWhile Leading.isDigit)).1 = [])) :
    ∃ mantissa, IsMantissa mantissa ∧
      s = mantissa ++ (readFraction (s.dropWhile Leading.isDigit)).2 := by
  have hsplit := List.takeWhile_append_dropWhile (p := Leading.isDigit) (l := s)
  have hwhole : IsDigits (s.takeWhile Leading.isDigit) := fun c hc => List.mem_takeWhile_imp hc
  revert h hsplit
  generalize s.dropWhile Leading.isDigit = rest
  unfold readFraction
  split
  · next fraction =>
    intro h hsplit
    refine ⟨s.takeWhile Leading.isDigit ++ '.' :: fraction.takeWhile Leading.isDigit,
      .point hwhole (fun c hc => List.mem_takeWhile_imp hc) (by tauto), ?_⟩
    rw [List.append_assoc, List.cons_append, List.takeWhile_append_dropWhile, hsplit]
  · intro h hsplit
    exact ⟨s.takeWhile Leading.isDigit, .whole hwhole (by tauto), hsplit.symm⟩

theorem readFraction_append {mantissa : List Char} (h : IsMantissa mantissa)
    (hs : StopsMantissa s) :
    ¬((mantissa ++ s).takeWhile Leading.isDigit = [] ∧
        (readFraction ((mantissa ++ s).dropWhile Leading.isDigit)).1 = []) ∧
      (readFraction ((mantissa ++ s).dropWhile Leading.isDigit)).2 = s := by
  have hstop : ∀ c, s.head? = some c → Leading.isDigit c = false := fun c hc => (hs c hc).1
  cases h with
  | whole hdigits hne =>
    have hread : readFraction s = ([], s) := by
      unfold readFraction
      split
      · exact absurd rfl (hs '.' rfl).2
      · rfl
    rw [Text.takeWhile_append_of_run hdigits hstop, Text.dropWhile_append_of_run hdigits hstop,
      hread]
    exact ⟨fun h => hne h.1, rfl⟩
  | @point whole fraction hwhole hfraction hne =>
    have hpoint : ∀ c, ('.' :: (fraction ++ s)).head? = some c → Leading.isDigit c = false := by
      intro c hc
      obtain rfl := Option.some.inj hc
      decide
    rw [List.append_assoc, List.cons_append, Text.takeWhile_append_of_run hwhole hpoint,
      Text.dropWhile_append_of_run hwhole hpoint, readFraction,
      Text.takeWhile_append_of_run hfraction hstop, Text.dropWhile_append_of_run hfraction hstop]
    exact ⟨by tauto, rfl⟩

theorem head?_mantissa_append {mantissa : List Char} (h : IsMantissa mantissa) (s : List Char)
    (c : Char) (hc : (mantissa ++ s).head? = some c) : c ≠ '+' ∧ c ≠ '-' := by
  have hdigit : ∀ c, Leading.isDigit c = true → c ≠ '+' ∧ c ≠ '-' := by
    rintro c h
    constructor
    · rintro rfl
      cases h
    · rintro rfl
      cases h
  cases h with
  | whole hdigits hne =>
    rw [List.head?_append_of_ne_nil _ hne] at hc
    exact hdigit c (hdigits c (List.mem_of_head? hc))
  | @point whole fraction hwhole _ _ =>
    cases whole with
    | nil =>
      obtain rfl := Option.some.inj hc
      decide
    | cons d whole =>
      obtain rfl := Option.some.inj hc
      exact hdigit d (hwhole d List.mem_cons_self)

theorem isSome_read? (s : List Char) : (read? s).isSome = true ↔ IsNumeral s := by
  constructor
  · intro h
    obtain ⟨sign, hsign, hs⟩ := exists_sign s
    rw [read?] at h
    dsimp only at h
    by_cases hempty : (readSign s).2.takeWhile Leading.isDigit = [] ∧
        (readFraction ((readSign s).2.dropWhile Leading.isDigit)).1 = []
    · rw [if_pos hempty] at h
      cases h
    · rw [if_neg hempty, Option.isSome_map] at h
      obtain ⟨mantissa, hmantissa, hrest⟩ := exists_mantissa _ hempty
      rw [hs, hrest]
      exact .mk hsign hmantissa (isExponent_of_readExponent? h)
  · rintro ⟨hsign, hmantissa, hexponent⟩
    have hread := readFraction_append hmantissa (stopsMantissa_of_isExponent hexponent)
    rw [read?]
    dsimp only
    rw [readSign_append hsign (head?_mantissa_append hmantissa _), if_neg hread.1, hread.2,
      Option.isSome_map]
    exact readExponent?_of_isExponent hexponent

end Reading

section Blanks

variable {s : List Char}

theorem isBlank_of_isDigit {c : Char} (h : Leading.isDigit c = true) : Text.isBlank c = false := by
  cases hblank : Text.isBlank c with
  | false => rfl
  | true =>
    simp only [Text.isBlank, Bool.or_eq_true, beq_iff_eq] at hblank
    rcases hblank with ((((rfl | rfl) | rfl) | rfl) | rfl) | rfl <;> cases h

theorem isBlank_of_mem_sign (h : IsSign s) {c : Char} (hc : c ∈ s) : Text.isBlank c = false := by
  rcases h with rfl | rfl | rfl
  · cases hc
  · rw [List.mem_singleton.mp hc]
    decide
  · rw [List.mem_singleton.mp hc]
    decide

theorem isBlank_of_mem_mantissa (h : IsMantissa s) {c : Char} (hc : c ∈ s) :
    Text.isBlank c = false := by
  cases h with
  | whole hdigits _ => exact isBlank_of_isDigit (hdigits c hc)
  | point hwhole hfraction _ =>
    rcases List.mem_append.mp hc with hc | hc
    · exact isBlank_of_isDigit (hwhole c hc)
    · rcases List.mem_cons.mp hc with rfl | hc
      · decide
      · exact isBlank_of_isDigit (hfraction c hc)

theorem isBlank_of_mem_exponent (h : IsExponent s) {c : Char} (hc : c ∈ s) :
    Text.isBlank c = false := by
  cases h with
  | nothing => cases hc
  | written hletter hsign hdigits _ =>
    rcases List.mem_cons.mp hc with rfl | hc
    · rcases hletter with rfl | rfl
      · decide
      · decide
    · rcases List.mem_append.mp hc with hc | hc
      · exact isBlank_of_mem_sign hsign hc
      · exact isBlank_of_isDigit (hdigits c hc)

theorem isBlank_of_mem_numeral (h : IsNumeral s) {c : Char} (hc : c ∈ s) :
    Text.isBlank c = false := by
  obtain ⟨hsign, hmantissa, hexponent⟩ := h
  rcases List.mem_append.mp hc with hc | hc
  · exact isBlank_of_mem_sign hsign hc
  · rcases List.mem_append.mp hc with hc | hc
    · exact isBlank_of_mem_mantissa hmantissa hc
    · exact isBlank_of_mem_exponent hexponent hc

end Blanks

theorem isSome_value? (text : String) : (value? text).isSome = true ↔ LooksNumeric text := by
  rw [value?, Option.isSome_map, isSome_read?]
  constructor
  · intro h
    obtain ⟨before, after, hbefore, hafter, hs⟩ := Text.exists_trimBlanks text.toList
    exact ⟨before, _, after, hbefore, hafter, h, hs⟩
  · rintro ⟨before, numeral, after, hbefore, hafter, hnumeral, hs⟩
    rw [hs, Text.trimBlanks_append hbefore hafter,
      Text.trimBlanks_of_not_blank fun c hc => isBlank_of_mem_numeral hnumeral hc]
    exact hnumeral

end Numeral
end AwkStartup
