import AwkStartup.Proofs.Text.Spellings

/-!
# Where a text with escapes can be cut

An escape reaches at most over digits. A text is therefore decoded in two parts when the first part
does not end in an open escape and the second one does not start with a digit that an escape could
take.
-/

namespace AwkStartup
namespace Text
namespace Escape

def StartsWithHexDigit (s : List Char) : Prop :=
  ∃ c d, s.head? = some c ∧ IsDigit 16 c d

/-- Whether a character behind a backslash, and before some text, starts an escape: a letter, an
octal digit, or x before a hexadecimal digit. -/
inductive StartsEscape : Char → List Char → Prop
  | letter {c l s} : (c, l) ∈ letters → StartsEscape l s
  | octal {c d s} : IsDigit 8 c d → StartsEscape c s
  | hex {s} : StartsWithHexDigit s → StartsEscape 'x' s

def trailingBackslashes (s : List Char) : Nat :=
  (s.reverse.takeWhile (· = '\\')).length

variable {c : Char} {d : Nat} {s t : List Char}

theorem IsDigit.of_octal (h : IsDigit 8 c d) : IsDigit 16 c d :=
  ⟨Nat.lt_of_lt_of_le h.1 (by decide), h.2⟩

section Runs

variable {digit? : Char → Option Nat}

theorem digitRun_append (hdigit : ∀ c d, digit? c = some d → IsDigit 16 c d)
    (ht : ¬StartsWithHexDigit t) (limit : Nat) (s : List Char) :
    digitRun digit? limit (s ++ t) = digitRun digit? limit s := by
  induction s generalizing limit with
  | nil =>
    cases t with
    | nil => rfl
    | cons c t =>
      have hc : digit? c = none := by
        rw [Option.eq_none_iff_forall_ne_some]
        intro d hd
        exact ht ⟨c, d, rfl, hdigit c d hd⟩
      rw [List.nil_append, digitRun_cons_none hc]
      cases limit <;> rfl
  | cons c s ih =>
    cases limit with
    | zero => rfl
    | succ limit =>
      cases hc : digit? c with
      | none => rw [List.cons_append, digitRun_cons_none hc, digitRun_cons_none hc]
      | some d => rw [List.cons_append, digitRun_cons_some hc, digitRun_cons_some hc, ih]

theorem digitRun_octal_append (ht : ¬StartsWithHexDigit t) (limit : Nat) (s : List Char) :
    digitRun octalDigit? limit (s ++ t) = digitRun octalDigit? limit s :=
  digitRun_append (fun _ _ hd => (octalDigit?_eq_some_iff.mp hd).of_octal) ht limit s

theorem digitRun_hex_append (ht : ¬StartsWithHexDigit t) (limit : Nat) (s : List Char) :
    digitRun hexDigit? limit (s ++ t) = digitRun hexDigit? limit s :=
  digitRun_append (fun _ _ => hexDigit?_eq_some_iff.mp) ht limit s

theorem length_digitRun_le (limit : Nat) (s : List Char) :
    (digitRun digit? limit s).length ≤ s.length := by
  induction s generalizing limit with
  | nil => cases limit <;> simp [digitRun]
  | cons c s ih =>
    cases limit with
    | zero => simp [digitRun]
    | succ limit =>
      cases hc : digit? c with
      | none => simp [digitRun_cons_none hc]
      | some d => simpa [digitRun_cons_some hc] using ih limit

theorem digit?_of_mem_take_digitRun {limit : Nat}
    (h : c ∈ s.take (digitRun digit? limit s).length) : digit? c ≠ none := by
  induction s generalizing limit with
  | nil => simp at h
  | cons e s ih =>
    cases limit with
    | zero => simp [digitRun] at h
    | succ limit =>
      cases he : digit? e with
      | none => simp [digitRun_cons_none he] at h
      | some d =>
        rw [digitRun_cons_some he, List.length_cons, List.take_succ_cons] at h
        rcases List.mem_cons.mp h with rfl | h
        · simp [he]
        · exact ih h

end Runs

theorem afterBackslash_other (h : ¬StartsEscape c s) :
    afterBackslash (c :: s) = (['\\', c], 1) := by
  have hletter : simple? c = none := by
    rw [Option.eq_none_iff_forall_ne_some]
    intro e he
    exact h (.letter (simple?_eq_some_iff.mp he))
  have hoctal : octalDigit? c = none := by
    rw [Option.eq_none_iff_forall_ne_some]
    intro e he
    exact h (.octal (octalDigit?_eq_some_iff.mp he))
  rw [afterBackslash, hletter, digitRun_cons_none hoctal]
  dsimp only
  split_ifs with hx
  · subst hx
    have hhex : digitRun hexDigit? 2 s = [] :=
      digitRun_hex_append (fun hdigit => h (.hex hdigit)) 2 []
    rw [hhex]
  · rfl

/-- Whether a character starts an escape is not decided behind the end of what follows it. -/
theorem StartsEscape.of_append (h : StartsEscape c (s ++ t)) (ht : ¬StartsWithHexDigit t) :
    StartsEscape c s := by
  cases h with
  | letter hl => exact .letter hl
  | octal hc => exact .octal hc
  | hex hdigit =>
    cases s with
    | nil => exact absurd hdigit ht
    | cons e s => exact .hex hdigit

/-- What a backslash takes does not change when a text follows that starts with no digit. -/
theorem afterBackslash_append (hs : s ≠ []) (ht : ¬StartsWithHexDigit t) :
    afterBackslash (s ++ t) = afterBackslash s := by
  obtain ⟨c, s, rfl⟩ := List.exists_cons_of_ne_nil hs
  rw [List.cons_append]
  by_cases h : StartsEscape c s
  · cases h with
    | letter hl => rw [afterBackslash_letter hl, afterBackslash_letter hl]
    | octal hc =>
      rw [afterBackslash_octal hc, afterBackslash_octal hc, digitRun_octal_append ht]
    | hex hdigit =>
      obtain ⟨e, d, he, hd⟩ := hdigit
      obtain ⟨s, rfl⟩ := List.head?_eq_some_iff.mp he
      rw [List.cons_append, afterBackslash_hex hd, afterBackslash_hex hd, digitRun_hex_append ht]
  · rw [afterBackslash_other h, afterBackslash_other fun happend => h (happend.of_append ht)]

theorem taken_afterBackslash (c : Char) (s : List Char) :
    0 < (afterBackslash (c :: s)).2 ∧ (afterBackslash (c :: s)).2 ≤ s.length + 1 ∧
      (c = '\\' ∧ (afterBackslash (c :: s)).2 = 1 ∨
        '\\' ∉ (c :: s).take (afterBackslash (c :: s)).2) := by
  have hone : c = '\\' ∧ 1 = 1 ∨ '\\' ∉ (c :: s).take 1 := by
    by_cases hc : c = '\\'
    · exact Or.inl ⟨hc, rfl⟩
    · exact Or.inr (by simpa using Ne.symm hc)
  by_cases h : StartsEscape c s
  · cases h with
    | letter hl =>
      rw [afterBackslash_letter hl]
      exact ⟨Nat.one_pos, Nat.le_add_left 1 _, hone⟩
    | octal hc =>
      have hlength := @length_digitRun_le octalDigit? 2 s
      rw [afterBackslash_octal hc]
      refine ⟨Nat.succ_pos _, Nat.succ_le_succ hlength, Or.inr ?_⟩
      rw [List.take_succ_cons, List.mem_cons, not_or]
      refine ⟨?_, fun hmem => digit?_of_mem_take_digitRun hmem rfl⟩
      rintro rfl
      cases octalDigit?_eq_some_iff.mpr hc
    | hex hdigit =>
      obtain ⟨e, d, he, hd⟩ := hdigit
      obtain ⟨s, rfl⟩ := List.head?_eq_some_iff.mp he
      have hlength := @length_digitRun_le hexDigit? 1 s
      rw [afterBackslash_hex hd]
      refine ⟨Nat.succ_pos _, Nat.succ_le_succ (Nat.succ_le_succ hlength), Or.inr ?_⟩
      rw [List.take_succ_cons, List.take_succ_cons, List.mem_cons, List.mem_cons, not_or, not_or]
      refine ⟨by decide, ?_, fun hmem => digit?_of_mem_take_digitRun hmem rfl⟩
      rintro rfl
      cases hexDigit?_eq_some_iff.mpr hd
  · rw [afterBackslash_other h]
    exact ⟨Nat.one_pos, Nat.le_add_left 1 _, hone⟩

/-- Induction along the units of a text with escapes: a character by itself, a backslash at the
end, or a backslash with what it takes. -/
theorem escape_induction {motive : List Char → Prop} (nil : motive [])
    (ordinary : ∀ c s, c ≠ '\\' → motive s → motive (c :: s)) (lone : motive ['\\'])
    (escape : ∀ c s, motive ((c :: s).drop (afterBackslash (c :: s)).2) →
      motive ('\\' :: c :: s)) :
    ∀ s, motive s
  | [] => nil
  | e :: s => by
    by_cases he : e = '\\'
    · subst he
      match s with
      | [] => exact lone
      | c :: s => exact escape c s (escape_induction nil ordinary lone escape _)
    · exact ordinary e s he (escape_induction nil ordinary lone escape s)
termination_by s => s.length
decreasing_by
  all_goals simp only [List.length_cons, List.length_drop]
  all_goals omega

section Parity

theorem trailingBackslashes_append_cons (hc : c ≠ '\\') (s t : List Char) :
    trailingBackslashes (s ++ c :: t) = trailingBackslashes t := by
  have hstop : (c :: s.reverse).takeWhile (· = '\\') = [] :=
    List.takeWhile_cons_of_neg (by simpa using hc)
  rw [trailingBackslashes, List.reverse_append, List.reverse_cons, List.append_assoc,
    List.singleton_append, List.takeWhile_append, hstop]
  split_ifs with hall
  · rw [List.append_nil, trailingBackslashes, hall]
  · rfl

theorem even_trailingBackslashes_pair (s : List Char) :
    Even (trailingBackslashes ('\\' :: '\\' :: s)) ↔ Even (trailingBackslashes s) := by
  have hpair : ['\\', '\\'].takeWhile (· = '\\') = ['\\', '\\'] := rfl
  rw [trailingBackslashes, List.reverse_cons, List.reverse_cons, List.append_assoc,
    List.singleton_append, List.takeWhile_append, hpair]
  split_ifs with hall
  · rw [List.length_append, trailingBackslashes, hall]
    simp [Nat.even_add]
  · rfl

theorem even_trailingBackslashes_drop (c : Char) (s : List Char) :
    Even (trailingBackslashes ((c :: s).drop (afterBackslash (c :: s)).2)) ↔
      Even (trailingBackslashes ('\\' :: c :: s)) := by
  obtain ⟨hpos, -, ⟨rfl, hone⟩ | hnone⟩ := taken_afterBackslash c s
  · rw [hone, even_trailingBackslashes_pair]
    rfl
  · -- What is taken ends in a character that is no backslash.
    revert hpos hnone
    generalize (afterBackslash (c :: s)).2 = n
    intro hpos hnone
    have hne : (c :: s).take n ≠ [] := by
      rw [Ne, List.take_eq_nil_iff]
      simp [Nat.ne_of_gt hpos]
    have hlast : ((c :: s).take n).getLast hne ≠ '\\' := by
      intro h
      exact hnone (h ▸ List.getLast_mem hne)
    have hsplit : '\\' :: c :: s = ('\\' :: ((c :: s).take n).dropLast) ++
        ((c :: s).take n).getLast hne :: (c :: s).drop n := by
      rw [List.cons_append, List.append_cons, List.dropLast_concat_getLast, List.take_append_drop]
    rw [hsplit, trailingBackslashes_append_cons hlast]

end Parity

/-- A text is decoded in two parts when no escape reaches over the cut. -/
theorem decode_append (hs : Even (trailingBackslashes s)) (ht : ¬StartsWithHexDigit t) :
    decode (s ++ t) = decode s ++ decode t := by
  induction s using escape_induction with
  | nil => rfl
  | ordinary c s hc ih =>
    rw [← List.nil_append (c :: s), trailingBackslashes_append_cons hc] at hs
    rw [List.cons_append, decode_cons hc, decode_cons hc, ih hs, List.cons_append]
  | lone => exact absurd hs (by decide)
  | escape c s ih =>
    obtain ⟨-, hle, -⟩ := taken_afterBackslash c s
    rw [List.cons_append, decode_backslash, decode_backslash,
      afterBackslash_append (List.cons_ne_nil c s) ht, List.drop_append_of_le_length hle,
      ih ((even_trailingBackslashes_drop c s).mpr hs), List.append_assoc]

theorem decode_of_notMem (h : '\\' ∉ s) : decode s = s := by
  induction s with
  | nil => rfl
  | cons c s ih =>
    rw [List.mem_cons, not_or] at h
    rw [decode_cons (Ne.symm h.1), ih h.2]

theorem decode_other (h : ¬StartsEscape c s) :
    decode ('\\' :: c :: s) = '\\' :: c :: decode s := by
  rw [decode_backslash, afterBackslash_other h]
  rfl

theorem getLast?_decode (h : Odd (trailingBackslashes s)) : (decode s).getLast? = some '\\' := by
  induction s using escape_induction with
  | nil => exact absurd h (by decide)
  | ordinary c s hc ih =>
    rw [← List.nil_append (c :: s), trailingBackslashes_append_cons hc] at h
    rw [decode_cons hc, List.getLast?_cons, ih h]
    rfl
  | lone => rfl
  | escape c s ih =>
    rw [← Nat.not_even_iff_odd, ← even_trailingBackslashes_drop, Nat.not_even_iff_odd] at h
    rw [decode_backslash, List.getLast?_append, ih h]
    rfl

/-- Decoding is local: a text may be cut where an even number of backslashes stands before the cut
and no hexadecimal digit behind it. A text without backslashes is decoded to itself, a spelling is
decoded to its character before any text, a backslash that starts no escape is kept with the
character behind it, and a text that ends in an odd number of backslashes is decoded to one that
ends in a backslash. -/
theorem escapes_are_local :
    (∀ s t : String, Even (trailingBackslashes s.toList) → ¬StartsWithHexDigit t.toList →
      unescape (s ++ t) = unescape s ++ unescape t) ∧
    (∀ s : String, '\\' ∉ s.toList → unescape s = s) ∧
    (∀ (c : Char) (spelling t : String), IsSpelling c spelling.toList →
      unescape (spelling ++ t) = String.singleton c ++ unescape t) ∧
    (∀ (c : Char) (t : String), ¬StartsEscape c t.toList →
      unescape ("\\" ++ String.singleton c ++ t) =
        "\\" ++ String.singleton c ++ unescape t) ∧
    ∀ s : String, Odd (trailingBackslashes s.toList) →
      (unescape s).toList.getLast? = some '\\' := by
  refine ⟨?_, ?_, ?_, ?_, ?_⟩
  · intro s t hs ht
    rw [unescape, String.toList_append, decode_append hs ht, String.ofList_append]
    rfl
  · intro s hs
    rw [unescape, decode_of_notMem hs, String.ofList_toList]
  · intro c spelling t h
    rw [← String.toList_inj, unescape, unescape, String.toList_append, h.decode_append]
    simp only [String.toList_append, String.toList_singleton, String.toList_ofList]
    rfl
  · intro c t ht
    rw [← String.toList_inj, unescape, unescape, String.toList_ofList]
    simp only [String.toList_append, String.toList_singleton, String.toList_ofList]
    exact decode_other ht
  · intro s hs
    rw [unescape, String.toList_ofList, getLast?_decode hs]

-- Neither condition on the cut can be left out.
example : unescape ("\\x4" ++ "1") ≠ unescape "\\x4" ++ unescape "1" ∧
    unescape ("\\" ++ "n") ≠ unescape "\\" ++ unescape "n" := by decide

/-- A cut between a short escape with two backslashes and a letter, and an x without digits. -/
theorem escapes_are_local_cut :
    (Even (trailingBackslashes "\\x4\\\\".toList) ∧ ¬StartsWithHexDigit "n\\1".toList ∧
      unescape ("\\x4\\\\" ++ "n\\1") = unescape "\\x4\\\\" ++ unescape "n\\1") ∧
    ('\\' ∉ "x41".toList ∧ unescape "x41" = "x41") ∧
    (IsSpelling 'A' "\\101".toList ∧
      unescape ("\\101" ++ "7\\1") = String.singleton 'A' ++ unescape "7\\1") ∧
    (¬StartsEscape 'x' "n\\1".toList ∧
      unescape ("\\" ++ String.singleton 'x' ++ "n\\1") =
        "\\" ++ String.singleton 'x' ++ unescape "n\\1") ∧
    Odd (trailingBackslashes "\\1\\\\\\".toList) ∧
      (unescape "\\1\\\\\\").toList.getLast? = some '\\' := by
  obtain ⟨hcut, hplain, hspelled, hother, hend⟩ := escapes_are_local
  have hletter : ¬StartsWithHexDigit "n\\1".toList := by
    rintro ⟨c, d, hc, hd⟩
    obtain rfl := Option.some.inj hc
    cases hexDigit?_eq_some_iff.mpr hd
  have hx : ¬StartsEscape 'x' "n\\1".toList := by
    intro h
    cases h with
    | letter hl => cases simple?_eq_some_iff.mpr hl
    | octal hd => cases octalDigit?_eq_some_iff.mpr hd
    | hex hdigit => exact hletter hdigit
  have heven : Even (trailingBackslashes "\\x4\\\\".toList) := by decide
  have hodd : Odd (trailingBackslashes "\\1\\\\\\".toList) := by decide
  have hnone : '\\' ∉ "x41".toList := by decide
  have hspelling : IsSpelling 'A' "\\101".toList :=
    .octal (d := 1) (e := 0) (f := 1) (by decide) (by decide) (by decide) rfl (by decide)
  exact ⟨⟨heven, hletter, hcut _ _ heven hletter⟩, ⟨hnone, hplain _ hnone⟩,
    ⟨hspelling, hspelled _ _ _ hspelling⟩, ⟨hx, hother _ _ hx⟩, hodd, hend _ hodd⟩

end Escape
end Text
end AwkStartup
