import AwkStartup.Text.Escape
import Mathlib.Tactic

/-!
# Spellings of a character

A character can be written as itself, behind a backslash as the letter that stands for it, and by
its code in three octal or two hexadecimal digits. Such a spelling is decoded alone, whatever stands
next to it, so decoding a text undoes every choice of spellings.
-/

namespace AwkStartup
namespace Text
namespace Escape

/-- A digit of a base up to sixteen and its value; letters stand in either case. -/
def IsDigit (base : Nat) (c : Char) (d : Nat) : Prop :=
  d < base ∧ (c = Nat.digitChar d ∨ c = (Nat.digitChar d).toUpper)

instance (base : Nat) (c : Char) (d : Nat) : Decidable (IsDigit base c d) :=
  inferInstanceAs (Decidable (_ ∧ _))

/-- The characters that have an escape of two characters, each with the second of them. -/
def letters : List (Char × Char) :=
  [('\n', 'n'), ('\t', 't'), ('\x0c', 'f'), ('\x08', 'b'), ('\r', 'r'), ('\x07', 'a'),
    ('\x0b', 'v'), ('\\', '\\'), ('"', '"')]

/-- The spellings of a character. -/
inductive IsSpelling (c : Char) : List Char → Prop
  | itself : c ≠ '\\' → IsSpelling c [c]
  | letter {l} : (c, l) ∈ letters → IsSpelling c ['\\', l]
  | octal {x y z d e f} : IsDigit 8 x d → IsDigit 8 y e → IsDigit 8 z f →
      c.toNat = d * 64 + e * 8 + f → c.toNat ≤ 0xff → IsSpelling c ['\\', x, y, z]
  | hex {x y d e} : IsDigit 16 x d → IsDigit 16 y e → c.toNat = d * 16 + e →
      IsSpelling c ['\\', 'x', x, y]

variable {c : Char} {d base : Nat} {s : List Char}

theorem isDigit_of_toNat (hd : d < base)
    (h : c.toNat = (Nat.digitChar d).toNat ∨ c.toNat = (Nat.digitChar d).toUpper.toNat) :
    IsDigit base c d :=
  ⟨hd, h.imp Char.toNat_inj.mp Char.toNat_inj.mp⟩

theorem toNat_digitChar_of_ten_le (hten : 10 ≤ d) (hd : d < 16) :
    (Nat.digitChar d).toNat = d + 87 ∧ (Nat.digitChar d).toUpper.toNat = d + 55 := by
  interval_cases d <;> exact ⟨rfl, rfl⟩

theorem hexDigit?_eq_some_iff : hexDigit? c = some d ↔ IsDigit 16 c d := by
  constructor
  · intro h
    unfold hexDigit? at h
    split_ifs at h with hdecimal hlower hupper
    · change 48 ≤ c.toNat ∧ c.toNat ≤ 57 at hdecimal
      have hd : c.toNat - 48 = d := Option.some.inj h
      refine isDigit_of_toNat (by omega) (Or.inl ?_)
      rw [Nat.toNat_digitChar_of_lt_ten (by omega)]
      omega
    · change 97 ≤ c.toNat ∧ c.toNat ≤ 102 at hlower
      have hd : c.toNat - 97 + 10 = d := Option.some.inj h
      refine isDigit_of_toNat (by omega) (Or.inl ?_)
      rw [(toNat_digitChar_of_ten_le (by omega) (by omega)).1]
      omega
    · change 65 ≤ c.toNat ∧ c.toNat ≤ 70 at hupper
      have hd : c.toNat - 65 + 10 = d := Option.some.inj h
      refine isDigit_of_toNat (by omega) (Or.inr ?_)
      rw [(toNat_digitChar_of_ten_le (by omega) (by omega)).2]
      omega
  · rintro ⟨hd, rfl | rfl⟩
    · interval_cases d <;> rfl
    · interval_cases d <;> rfl

theorem octalDigit?_eq_some_iff : octalDigit? c = some d ↔ IsDigit 8 c d := by
  constructor
  · intro h
    unfold octalDigit? at h
    split_ifs at h with hoctal
    change 48 ≤ c.toNat ∧ c.toNat ≤ 55 at hoctal
    have hd : c.toNat - 48 = d := Option.some.inj h
    refine isDigit_of_toNat (by omega) (Or.inl ?_)
    rw [Nat.toNat_digitChar_of_lt_ten (by omega)]
    omega
  · rintro ⟨hd, rfl | rfl⟩
    · interval_cases d <;> rfl
    · interval_cases d <;> rfl

theorem simple?_eq_some_iff {l : Char} : simple? l = some c ↔ (c, l) ∈ letters := by
  constructor
  · intro h
    unfold simple? at h
    split at h <;> cases h <;> decide
  · intro h
    simp only [letters, List.mem_cons, Prod.mk.injEq, List.not_mem_nil, or_false] at h
    rcases h with ⟨rfl, rfl⟩ | ⟨rfl, rfl⟩ | ⟨rfl, rfl⟩ | ⟨rfl, rfl⟩ | ⟨rfl, rfl⟩ | ⟨rfl, rfl⟩ |
      ⟨rfl, rfl⟩ | ⟨rfl, rfl⟩ | ⟨rfl, rfl⟩ <;> rfl

theorem byteChar_toNat (h : c.toNat ≤ 0xff) : byteChar c.toNat = c := by
  rw [byteChar, Nat.mod_eq_of_lt (by omega), Char.ofNat_toNat]

theorem digitRun_cons_some {digit? : Char → Option Nat} (h : digit? c = some d) (limit : Nat)
    (s : List Char) : digitRun digit? (limit + 1) (c :: s) = d :: digitRun digit? limit s := by
  simp [digitRun, h]

theorem digitRun_cons_none {digit? : Char → Option Nat} (h : digit? c = none) (limit : Nat)
    (s : List Char) : digitRun digit? limit (c :: s) = [] := by
  cases limit with
  | zero => rfl
  | succ limit => simp [digitRun, h]

theorem afterBackslash_letter {l : Char} (h : (c, l) ∈ letters) (s : List Char) :
    afterBackslash (l :: s) = ([c], 1) := by
  simp [afterBackslash, simple?_eq_some_iff.mpr h]

theorem simple?_of_isDigit (h : IsDigit 8 c d) : simple? c = none := by
  obtain ⟨hd, rfl | rfl⟩ := h
  · interval_cases d <;> rfl
  · interval_cases d <;> rfl

theorem afterBackslash_octal (h : IsDigit 8 c d) (s : List Char) :
    afterBackslash (c :: s) =
      ([byteChar (value 8 (d :: digitRun octalDigit? 2 s))],
        (digitRun octalDigit? 2 s).length + 1) := by
  rw [afterBackslash, simple?_of_isDigit h,
    digitRun_cons_some (octalDigit?_eq_some_iff.mpr h)]

theorem afterBackslash_hex (h : IsDigit 16 c d) (s : List Char) :
    afterBackslash ('x' :: c :: s) =
      ([byteChar (value 16 (d :: digitRun hexDigit? 1 s))],
        (digitRun hexDigit? 1 s).length + 2) := by
  have hx : digitRun octalDigit? 3 ('x' :: c :: s) = [] := rfl
  have hsimple : simple? 'x' = none := rfl
  rw [afterBackslash, hsimple, hx, digitRun_cons_some (hexDigit?_eq_some_iff.mpr h)]
  rfl

theorem IsSpelling.decode_append {spelling : List Char} (h : IsSpelling c spelling)
    (rest : List Char) : decode (spelling ++ rest) = c :: decode rest := by
  cases h with
  | itself hc => exact decode_cons hc rest
  | letter hl =>
    rw [List.cons_append, decode_backslash, List.cons_append, afterBackslash_letter hl]
    rfl
  | @octal x y z d e f hx hy hz hcode hbyte =>
    have hrun : digitRun octalDigit? 2 (y :: z :: rest) = [e, f] := by
      rw [digitRun_cons_some (octalDigit?_eq_some_iff.mpr hy),
        digitRun_cons_some (octalDigit?_eq_some_iff.mpr hz)]
      rfl
    have hvalue : value 8 [d, e, f] = c.toNat := by
      simp only [value, List.foldl_cons, List.foldl_nil]
      omega
    simp only [List.cons_append, List.nil_append]
    rw [decode_backslash, afterBackslash_octal hx, hrun, hvalue, byteChar_toNat hbyte]
    rfl
  | @hex x y d e hx hy hcode =>
    have hrun : digitRun hexDigit? 1 (y :: rest) = [e] := by
      rw [digitRun_cons_some (hexDigit?_eq_some_iff.mpr hy)]
      rfl
    have hvalue : value 16 [d, e] = c.toNat := by
      simp only [value, List.foldl_cons, List.foldl_nil]
      omega
    have hbyte : c.toNat ≤ 0xff := by
      have := hx.1
      have := hy.1
      omega
    simp only [List.cons_append, List.nil_append]
    rw [decode_backslash, afterBackslash_hex hx, hrun, hvalue, byteChar_toNat hbyte]
    rfl

theorem decode_spellings {spellings : List (List Char)} (h : List.Forall₂ IsSpelling s spellings) :
    decode spellings.flatten = s := by
  induction h with
  | nil => rfl
  | cons hfirst _ ih => rw [List.flatten_cons, hfirst.decode_append, ih]

def doubleBackslashes (s : List Char) : List Char :=
  s.flatMap fun c => if c = '\\' then ['\\', '\\'] else [c]

theorem decode_doubleBackslashes (s : List Char) : decode (doubleBackslashes s) = s := by
  rw [doubleBackslashes, List.flatMap_def]
  apply decode_spellings
  rw [List.forall₂_map_right_iff, List.forall₂_same]
  intro c _
  split_ifs with hc
  · subst hc
    exact .letter (by decide)
  · exact .itself hc

/-- Decoding undoes every choice of spellings: when each character of a text is written as itself,
as its escape of two characters, or by its code in three octal or two hexadecimal digits, the
spellings together are decoded to the text. So is the text with each backslash written twice. -/
theorem decoding_undoes_spelling (s : String) :
    (∀ spellings : List String,
      List.Forall₂ (fun c spelling => IsSpelling c spelling.toList) s.toList spellings →
        unescape (String.join spellings) = s) ∧
    unescape (String.ofList (doubleBackslashes s.toList)) = s := by
  constructor
  · intro spellings h
    rw [unescape, String.toList_join, List.flatMap_def,
      decode_spellings (List.forall₂_map_right_iff.mpr h), String.ofList_toList]
  · rw [unescape, String.toList_ofList, decode_doubleBackslashes, String.ofList_toList]

/-- Digits stand right behind the spelled codes, and the codes are those of a backslash, of a letter
beyond ASCII and of a quote. -/
theorem decoding_undoes_spelling_digits :
    List.Forall₂ (fun c spelling => IsSpelling c spelling.toList) "\\7é1\n\"日".toList
      ["\\134", "7", "\\xE9", "1", "\\n", "\\042", "日"] ∧
    unescape (String.join ["\\134", "7", "\\xE9", "1", "\\n", "\\042", "日"]) =
      "\\7é1\n\"日" := by
  have h : List.Forall₂ (fun c spelling => IsSpelling c spelling.toList) "\\7é1\n\"日".toList
      ["\\134", "7", "\\xE9", "1", "\\n", "\\042", "日"] := by
    refine .cons ?_ (.cons ?_ (.cons ?_ (.cons ?_ (.cons ?_ (.cons ?_ (.cons ?_ .nil))))))
    · exact .octal (d := 1) (e := 3) (f := 4) (by decide) (by decide) (by decide) rfl (by decide)
    · exact .itself (by decide)
    · exact .hex (d := 14) (e := 9) (by decide) (by decide) rfl
    · exact .itself (by decide)
    · exact .letter (by decide)
    · exact .octal (d := 0) (e := 4) (f := 2) (by decide) (by decide) (by decide) rfl (by decide)
    · exact .itself (by decide)
  exact ⟨h, (decoding_undoes_spelling _).1 _ h⟩

end Escape
end Text
end AwkStartup
