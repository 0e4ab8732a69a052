import AwkStartup.Proofs.Number.LeadingInteger
import AwkStartup.Proofs.Text.Offsets
import AwkStartup.Proofs.Text.Runs
import Mathlib.Tactic

/-!
# Leading integers in machine words

The digits at the front of a text are bytes, and their number is collected in a signed word of 64
bits. Products and sums stay at the ends of the range. The value of a digit and the negation are
checked, and neither check ever fails: a word is collected for every text, and it is the integer at
the front of the text.
-/

namespace AwkStartup
namespace Word

/-- The product of two words, or the end of the range that it lies beyond. -/
def saturatingMul (a b : Int64) : Int64 :=
  .ofIntClamp (a.toInt * b.toInt)

def saturatingAdd (a b : Int64) : Int64 :=
  .ofIntClamp (a.toInt + b.toInt)

/-- The negation of a word; nothing when it overflows. -/
def neg? (a : Int64) : Option Int64 :=
  if -2 ^ 63 ≤ -a.toInt ∧ -a.toInt < 2 ^ 63 then some (-a) else none

def sub? (a b : UInt8) : Option UInt8 :=
  if b ≤ a then some (a - b) else none

def isDigit (b : UInt8) : Bool :=
  48 ≤ b && b ≤ 57

def push? (a : Int64) (b : UInt8) : Option Int64 :=
  (sub? b 48).map fun d => saturatingAdd (saturatingMul a 10) (.ofNat d.toNat)

def digits? (s : List UInt8) : Option Int64 :=
  (s.takeWhile isDigit).foldlM push? 0

def integer? (text : String) : Option Int64 :=
  match text.toList.dropWhile Text.isBlank with
  | '-' :: rest => (digits? (Text.encode rest)).bind neg?
  | '+' :: rest => digits? (Text.encode rest)
  | rest => digits? (Text.encode rest)

section Operations

theorem toInt_ofIntClamp (n : Int) :
    (Int64.ofIntClamp n).toInt = max (-2 ^ 63) (min n Leading.limit) := by
  have hleast : Int64.minValue.toInt = -2 ^ 63 := rfl
  have hmost : Int64.maxValue.toInt = Leading.limit := rfl
  have hlimit : (0 : Int) ≤ Leading.limit := by decide
  unfold Int64.ofIntClamp
  split_ifs with hlower hupper
  · rw [Int64.toInt_ofIntLE]
    omega
  · rw [hmost]
    omega
  · rw [hleast]
    omega

/-- A word is negated exactly, unless it is the least one. -/
theorem exists_neg? {a : Int64} (h : -Leading.limit ≤ a.toInt) :
    ∃ b, neg? a = some b ∧ b.toInt = -a.toInt := by
  have hupper := a.toInt_lt
  unfold Leading.limit at h
  refine ⟨-a, if_pos (by omega), ?_⟩
  rw [Int64.toInt_neg]
  apply Int.bmod_eq_of_le <;> omega

end Operations

section Digits

variable {c : Char} {a : Int64}

theorem utf8EncodeChar_digit (h : Leading.isDigit c = true) :
    String.utf8EncodeChar c = [UInt8.ofNat c.toNat] := by
  have hrange := Leading.isDigit_iff_toNat.mp h
  exact Text.utf8EncodeChar_ascii (by omega)

theorem isDigit_ofNat {n : Nat} (h : n < 256) :
    isDigit (UInt8.ofNat n) = true ↔ 48 ≤ n ∧ n ≤ 57 := by
  simp only [isDigit, Bool.and_eq_true, decide_eq_true_eq, UInt8.le_iff_toNat_le,
    UInt8.toNat_ofNat', UInt8.reduceToNat]
  omega

theorem isDigit_eq_false (h : Leading.isDigit c = false) {b : UInt8}
    (hb : b ∈ String.utf8EncodeChar c) : isDigit b = false := by
  by_cases hascii : c.toNat < 128
  · rw [Text.utf8EncodeChar_ascii hascii, List.mem_singleton] at hb
    rw [hb, Bool.eq_false_iff, ne_eq, isDigit_ofNat (by omega), ← Leading.isDigit_iff_toNat, h]
    exact Bool.false_ne_true
  · have hbeyond := Text.le_of_mem_utf8EncodeChar (by omega) hb
    simp only [isDigit, Bool.and_eq_false_iff, decide_eq_false_iff_not, UInt8.le_iff_toNat_le,
      UInt8.reduceToNat] at hbeyond ⊢
    omega

theorem takeWhile_isDigit_encode (s : List Char) :
    (Text.encode s).takeWhile isDigit = Text.encode (s.takeWhile Leading.isDigit) := by
  apply Text.takeWhile_encode
  · intro c hc b hb
    have hrange := Leading.isDigit_iff_toNat.mp hc
    rw [utf8EncodeChar_digit hc, List.mem_singleton] at hb
    rw [hb, isDigit_ofNat (by omega)]
    exact hrange
  · intro c hc b hb
    exact isDigit_eq_false hc (List.mem_of_head? hb)

/-- One more digit overflows nowhere, and its word is that of the integers. -/
theorem exists_push? (ha : 0 ≤ a.toInt) (h : Leading.isDigit c = true) :
    ∃ b, push? a (UInt8.ofNat c.toNat) = some b ∧ b.toInt = Leading.push a.toInt c := by
  obtain ⟨hlow, hhigh⟩ := Leading.isDigit_iff_toNat.mp h
  have hzero : (48 : UInt8).toNat = 48 := rfl
  have hle : (48 : UInt8) ≤ UInt8.ofNat c.toNat := by
    rw [UInt8.le_iff_toNat_le, UInt8.toNat_ofNat', hzero]
    omega
  have hvalue : (UInt8.ofNat c.toNat - 48).toNat = Leading.digitValue c := by
    rw [UInt8.toNat_sub_of_le _ _ hle, UInt8.toNat_ofNat', hzero]
    change c.toNat % 2 ^ 8 - 48 = c.toNat - 48
    omega
  have hsmall : Leading.digitValue c < 2 ^ 63 := by
    change c.toNat - 48 < 2 ^ 63
    omega
  refine ⟨_, by rw [push?, sub?, if_pos hle, Option.map_some], ?_⟩
  rw [saturatingAdd, saturatingMul, toInt_ofIntClamp, toInt_ofIntClamp, hvalue,
    Int64.toInt_ofNat_of_lt hsmall]
  change max (-2 ^ 63) (min (max (-2 ^ 63) (min (a.toInt * 10) Leading.limit) +
    (Leading.digitValue c : Int)) Leading.limit) = _
  unfold Leading.push Leading.limit
  omega

theorem push_nonneg {n : Int} (h : 0 ≤ n) (c : Char) : 0 ≤ Leading.push n c := by
  unfold Leading.push Leading.limit
  omega

theorem exists_foldlM_push? (ha : 0 ≤ a.toInt) {s : List Char}
    (hs : ∀ c ∈ s, Leading.isDigit c = true) :
    ∃ b, (Text.encode s).foldlM push? a = some b ∧ b.toInt = s.foldl Leading.push a.toInt := by
  -- The word collected so far is never negative, so the lower end of the range does not matter.
  induction s generalizing a with
  | nil => exact ⟨a, rfl, rfl⟩
  | cons c s ih =>
    obtain ⟨hc, hs⟩ := List.forall_mem_cons.mp hs
    obtain ⟨b, hpush, hb⟩ := exists_push? ha hc
    obtain ⟨d, hfold, hd⟩ := ih (hb ▸ push_nonneg ha c) hs
    refine ⟨d, ?_, by rw [hd, hb, List.foldl_cons]⟩
    rw [Text.encode_cons, utf8EncodeChar_digit hc, List.singleton_append, List.foldlM_cons, hpush]
    exact hfold

theorem exists_digits? (s : List Char) :
    ∃ a, digits? (Text.encode s) = some a ∧ a.toInt = Leading.digits s := by
  rw [digits?, takeWhile_isDigit_encode]
  exact exists_foldlM_push? le_rfl fun c hc => List.mem_takeWhile_imp hc

end Digits

theorem integer?_of_isUnsigned {text : String}
    (h : Leading.IsUnsigned (text.toList.dropWhile Text.isBlank)) :
    integer? text = digits? (Text.encode (text.toList.dropWhile Text.isBlank)) := by
  unfold integer?
  split
  · next hs => exact absurd (congrArg List.head? hs) h.1
  · next hs => exact absurd (congrArg List.head? hs) h.2
  · rfl

theorem exists_integer? (text : String) :
    ∃ a, integer? text = some a ∧ a.toInt = Leading.integer text.toList := by
  rcases Leading.sign_cases (text.toList.dropWhile Text.isBlank) with ⟨rest, hs⟩ | ⟨rest, hs⟩ | hs
  · obtain ⟨a, hdigits, ha⟩ := exists_digits? rest
    have hleast : -Leading.limit ≤ a.toInt := by
      rw [ha, Leading.digits_eq_min]
      unfold Leading.limit
      omega
    obtain ⟨b, hneg, hb⟩ := exists_neg? hleast
    rw [integer?, Leading.integer, hs]
    refine ⟨b, ?_, ?_⟩
    · change (digits? (Text.encode rest)).bind neg? = some b
      rw [hdigits, Option.bind_some, hneg]
    · change b.toInt = -Leading.digits rest
      rw [hb, ha]
  · rw [integer?, Leading.integer, hs]
    exact exists_digits? rest
  · rw [integer?_of_isUnsigned hs, Leading.integer_of_isUnsigned hs]
    exact exists_digits? _

end Word
end AwkStartup
