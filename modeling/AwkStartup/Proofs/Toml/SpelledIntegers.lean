import AwkStartup.Proofs.Text.Runs
import AwkStartup.Proofs.Value.CanonicalSpellings
import AwkStartup.Toml.Document

/-!
# Integers in configuration documents

An integer that is written canonically is read as that integer as far as 64 bits reach. It is no
boolean, no date and no time, and reading stops behind its last digit.
-/

namespace AwkStartup
namespace Toml

open Subscript (SpellsNat Spells InRange)

variable {s rest digits : List Char} {m : Nat} {n : Int}

namespace Scalar

section Digits

theorem digitValue?_eq {c : Char} (h : Leading.isDigit c = true) :
    digitValue? c = some (Leading.digitValue c) :=
  if_pos h

theorem isDigitOf_ten {c : Char} (h : Leading.isDigit c = true) : isDigitOf 10 c = true := by
  rw [isDigitOf, digitValue?_eq h]
  exact decide_eq_true (Subscript.digitChar_digitValue h).1

theorem ungroup?_eq (hdigits : ∀ c ∈ digits, Leading.isDigit c = true) {afterDigit : Bool}
    (hsome : afterDigit = true ∨ digits ≠ []) : ungroup? 10 afterDigit digits = some digits := by
  induction digits generalizing afterDigit with
  | nil =>
    rw [ungroup?, if_pos (hsome.resolve_right fun hne => hne rfl)]
  | cons c digits ih =>
    obtain ⟨hc, hlater⟩ := List.forall_mem_cons.mp hdigits
    rw [ungroup?, if_pos (isDigitOf_ten hc), ih hlater (Or.inl rfl)]
    · rfl
    · rintro rfl
      cases hc

theorem number_eq (h : SpellsNat digits m) : number 10 digits = m := by
  induction h with
  | @single c hc =>
    change 0 * 10 + (digitValue? c).getD 0 = Leading.digitValue c
    rw [digitValue?_eq hc, Option.getD_some, Nat.zero_mul, Nat.zero_add]
  | @snoc digits n c _ _ hc ih =>
    have hsnoc : number 10 (digits ++ [c]) = number 10 digits * 10 + (digitValue? c).getD 0 := by
      rw [number, List.foldl_append]
      rfl
    rw [hsnoc, ih, digitValue?_eq hc, Option.getD_some, Nat.mul_comm]

theorem decimalDigits?_eq (h : SpellsNat digits m) : decimalDigits? digits = some digits := by
  have hleading : ¬(digits.head? = some '0' ∧ digits ≠ ['0']) := by
    rintro ⟨hhead, hne⟩
    rcases Nat.eq_zero_or_pos m with rfl | hpos
    · exact hne h.toDigits_eq.symm
    · exact h.head?_ne_zero hpos hhead
  rw [decimalDigits?, ungroup?_eq h.isDigit (Or.inr h.ne_nil)]
  exact if_neg hleading

end Digits

theorem integer?_of_readSign {signed negative : Bool}
    (hsign : readSign s = (signed, negative, digits)) (h : SpellsNat digits m)
    (hrange : InRange (if negative then -(m : Int) else m)) :
    integer? s = some (if negative then -(m : Int) else m) := by
  have hmem : ∀ c, ¬Leading.isDigit c = true → c ∉ digits := fun c hc hmem => hc (h.isDigit c hmem)
  unfold integer?
  rw [hsign]
  dsimp only
  split
  · exact absurd (by simp) (hmem 'x' (by decide))
  · exact absurd (by simp) (hmem 'o' (by decide))
  · exact absurd (by simp) (hmem 'b' (by decide))
  · rw [decimalDigits?_eq h, Option.map_some, Option.bind_some, number_eq h]
    exact if_pos hrange

theorem readSign_eq (h : SpellsNat digits m) : readSign digits = (false, false, digits) := by
  unfold readSign
  split
  · exact absurd (h.isDigit '-' List.mem_cons_self) (by decide)
  · exact absurd (h.isDigit '+' List.mem_cons_self) (by decide)
  · rfl

theorem integer?_eq (h : Spells s n) (hrange : InRange n) : integer? s = some n := by
  cases h with
  | natural hdigits => exact integer?_of_readSign (readSign_eq hdigits) hdigits hrange
  | negative hdigits _ => exact integer?_of_readSign rfl hdigits hrange

section Dates

theorem exists_cons_of_twoDigits? {least most k : Nat}
    (h : twoDigits? least most s = some (k, rest)) : ∃ a b, s = a :: b :: rest := by
  unfold twoDigits? at h
  split at h
  · rename_i a b later
    dsimp only at h
    split_ifs at h
    obtain ⟨-, rfl⟩ := Prod.mk.inj (Option.some.inj h)
    exact ⟨a, b, rfl⟩
  · cases h

/-- A time has a colon behind its hour. -/
theorem readTime?_eq_none (h : ':' ∉ s) : readTime? s = none := by
  rw [readTime?, Option.bind_eq_none_iff]
  rintro ⟨hour, later⟩ hhour
  obtain ⟨a, b, rfl⟩ := exists_cons_of_twoDigits? hhour
  dsimp only
  split
  · exact absurd (by simp) h
  · rfl

/-- A date has a hyphen behind its year. -/
theorem readDate?_eq_none {c : Char} {t : List Char} (h : '-' ∉ t) : readDate? (c :: t) = none := by
  unfold readDate?
  split
  · rename_i heq
    obtain ⟨-, rfl⟩ := List.cons.inj heq
    exact absurd (by simp) h
  · rfl

theorem isDateTime_eq_false (h : Spells s n) : isDateTime s = false := by
  obtain ⟨c, t, rfl, -, ht⟩ := h.exists_cons
  have hdate : '-' ∉ t := fun hmem => absurd (ht '-' hmem) (by decide)
  rw [isDateTime, readDate?_eq_none hdate, readTime?_eq_none (h.notMem (by decide))]

end Dates

theorem value?_eq (h : Spells s n) (hrange : InRange n) : value? s = some (.integer n) := by
  have hword : ∀ c, ¬(c = '-' ∨ Leading.isDigit c = true) → ∀ word, s ≠ c :: word := by
    rintro c hc word rfl
    exact h.notMem hc List.mem_cons_self
  rw [value?, if_neg (hword 't' (by decide) _), if_neg (hword 'f' (by decide) _),
    isDateTime_eq_false h, integer?_eq h hrange]
  rfl

end Scalar

section Reading

theorem isScalarChar_of_spells (h : Spells s n) : ∀ c ∈ s, isScalarChar c = true := by
  intro c hc
  rcases h.eq_or_isDigit hc with rfl | hdigit
  · decide
  · have hsame : Scalar.isDigit c = true := hdigit
    simp [isScalarChar, isBareKeyChar, hsame]

theorem readScalar?_eq (h : Spells s n) (hrange : InRange n)
    (hstop : ∀ c, rest.head? = some c → isScalarChar c = false) :
    readScalar? (s ++ rest) = some (.integer n, rest) := by
  have htoken := Text.takeWhile_append_of_run (isScalarChar_of_spells h) hstop
  have hrest := Text.dropWhile_append_of_run (isScalarChar_of_spells h) hstop
  have hdate : Scalar.readDate? s = none := by
    obtain ⟨c, t, rfl, -, ht⟩ := h.exists_cons
    exact Scalar.readDate?_eq_none fun hmem => absurd (ht '-' hmem) (by decide)
  unfold readScalar?
  rw [htoken, hrest]
  dsimp only
  rw [hdate]
  dsimp only
  rw [Scalar.value?_eq h hrange]
  rfl

theorem readValue?_eq (h : Spells s n) (hrange : InRange n)
    (hstop : ∀ c, rest.head? = some c → isScalarChar c = false) (fuel depth : Nat) :
    readValue? (fuel + 1) depth (s ++ rest) = some (.integer n, rest) := by
  rw [← readScalar?_eq h hrange hstop]
  obtain ⟨c, t, rfl, hc, -⟩ := h.exists_cons
  have hopens : ∀ d, ¬(d = '-' ∨ Leading.isDigit d = true) →
      ∀ tail, c :: (t ++ rest) = d :: tail → False := by
    intro d hd tail heq
    obtain ⟨rfl, -⟩ := List.cons.inj heq
    exact hd hc
  rw [List.cons_append, readValue?]
  · exact hopens '"' (by decide)
  · exact hopens '\'' (by decide)
  · exact fun tail _ heq _ => hopens '[' (by decide) tail heq
  · exact fun tail _ heq _ => hopens '\x7b' (by decide) tail heq

theorem readPair?_of_readKey? {path : List String}
    (hkey : readKey? (s.length + 1) s = some (path, '=' :: rest)) (d : Draft) :
    readPair? d s =
      (readValue? (2 * rest.length + 2) depthLimit (skipBlanks rest)).bind fun (v, s) =>
        (within? (assign? v true path) d.header d.root).map fun root => (⟨root, d.header⟩, s) := by
  rw [readPair?, hkey, Option.bind_some]
  rfl

theorem skipBlanks_of_spells (h : Spells s n) (rest : List Char) :
    skipBlanks (' ' :: (s ++ rest)) = s ++ rest := by
  obtain ⟨c, t, rfl, -, -⟩ := h.exists_cons
  have hblank : isBlank c = false := by
    rw [isBlank, Bool.or_eq_false_iff, decide_eq_false_iff_not, decide_eq_false_iff_not]
    constructor
    · rintro rfl
      exact h.notMem (by decide) List.mem_cons_self
    · rintro rfl
      exact h.notMem (by decide) List.mem_cons_self
  rw [skipBlanks, List.dropWhile_cons_of_pos (by decide), List.cons_append,
    List.dropWhile_cons_of_neg (by simp [hblank])]

theorem readLines?_pair (fuel : Nat) (d : Draft) (rest : List Char) :
    readLines? (fuel + 1) d ("binmode = ".toList ++ rest) =
      (readPair? d ("binmode = ".toList ++ rest)).bind fun (d, s) =>
        (skipComment? (skipBlanks s)).bind fun s =>
          match s with
          | [] => some d.root
          | s => (Quoted.newline? s).bind fun s => readLines? fuel d s := rfl

theorem readLines?_binmode (h : Spells s n) (hrange : InRange n) (fuel : Nat) :
    readLines? (fuel + 3) ⟨[], []⟩ ("[options]\nbinmode = ".toList ++ (s ++ ['\n'])) =
      some [("options", .table .header [("binmode", .value (.integer n))])] := by
  have hheader (fuel : Nat) (rest : List Char) :
      readLines? (fuel + 1) ⟨[], []⟩ ("[options]\nbinmode = ".toList ++ rest) =
        readLines? fuel ⟨[("options", .table .header [])], ["options"]⟩
          ("binmode = ".toList ++ rest) := rfl
  have hkey (rest : List Char) :
      readKey? (("binmode = ".toList ++ rest).length + 1) ("binmode = ".toList ++ rest) =
        some (["binmode"], '=' :: ' ' :: rest) := rfl
  rw [hheader, readLines?_pair, readPair?_of_readKey? (hkey _), skipBlanks_of_spells h,
    readValue?_eq h hrange (by simp [isScalarChar, isBareKeyChar, Scalar.isDigit])]
  rfl

theorem read?_of_toList {text : String} (h : text.toList = '[' :: rest) :
    read? text = (readLines? (('[' :: rest).length + 1) ⟨[], []⟩ ('[' :: rest)).map fun root =>
      .table (entriesToValues root) := by
  unfold read?
  rw [h]
  rfl

theorem read?_binmode (hrange : InRange n) :
    read? ("[options]\nbinmode = " ++ toString n ++ "\n") =
      some (.table [("options", .table [("binmode", .integer n)])]) := by
  obtain ⟨s, hs⟩ := Subscript.exists_spells n
  have htext : ("[options]\nbinmode = " ++ toString n ++ "\n").toList =
      '[' :: ("options]\nbinmode = ".toList ++ (s ++ ['\n'])) := by
    rw [hs.toString_eq]
    simp
  have hlength : ('[' :: ("options]\nbinmode = ".toList ++ (s ++ ['\n']))).length + 1 =
      (s.length + 19) + 3 := by
    simp
  have hlines := readLines?_binmode hs hrange (s.length + 19)
  rw [read?_of_toList htext, hlength]
  exact congrArg (Option.map fun root => Value.table (entriesToValues root)) hlines

end Reading

end Toml
end AwkStartup
