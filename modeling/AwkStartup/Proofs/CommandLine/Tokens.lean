import AwkStartup.CommandLine.Reading
import AwkStartup.Proofs.Text.Offsets

/-!
# Tokens as characters

A token of two characters or more is told by its second character, and the cuts behind it never
fail. Switches are told from their spellings, and nothing else is.
-/

namespace AwkStartup

theorem Switch.letter_toNat_lt (s : Switch) : s.letter.toNat < 128 := by
  cases s <;> decide

theorem Switch.letter_ne_hyphen (s : Switch) : s.letter ≠ '-' := by
  cases s <;> decide

theorem isLongOption_ofList_iff (c : Char) (s : List Char) :
    isLongOption (String.ofList ('-' :: c :: s)) = true ↔ c = '-' ∧ s ≠ [] := by
  unfold isLongOption
  rw [String.toList_ofList]
  split
  · rename_i h
    simp only [List.cons.injEq, true_and] at h
    simp [h]
  · rename_i h
    simp only [Bool.false_eq_true, false_iff, not_and, not_not]
    rintro rfl
    cases s with
    | nil => rfl
    | cons d s => exact absurd rfl (h d s)

namespace Token

theorem bytes_ofList (c : Char) (s : List Char) :
    Text.bytes (String.ofList ('-' :: c :: s)) =
      45 :: (String.utf8EncodeChar c ++ Text.encode s) := by
  rw [Text.bytes, String.toList_ofList]
  rfl

theorem length_encode_letter {c : Char} (h : c.toNat < 128) :
    (Text.encode ['-', c]).length = 2 := by
  rw [Text.encode_cons, Text.encode_cons, Text.utf8EncodeChar_ascii h]
  rfl

theorem exists_second_byte (c : Char) (s : List Char) :
    ∃ b ∈ String.utf8EncodeChar c,
      (Text.bytes (String.ofList ('-' :: c :: s)))[1]? = some b := by
  obtain ⟨b, bs, he⟩ := List.exists_cons_of_ne_nil (String.utf8EncodeChar_ne_nil (c := c))
  refine ⟨b, by simp [he], ?_⟩
  rw [bytes_ofList, he]
  rfl

theorem isBoundary_value {c : Char} {s : List Char} {b : UInt8}
    (hbyte : (Text.bytes (String.ofList ('-' :: c :: s)))[1]? = some b) (hb : b < 128) :
    Text.IsBoundary (String.ofList ('-' :: c :: s)) 2 := by
  have hc : c.toNat < 128 := by
    obtain ⟨other, hmem, hsecond⟩ := exists_second_byte c s
    obtain rfl : other = b := Option.some.inj (hsecond.symm.trans hbyte)
    by_contra hlarge
    exact absurd (Text.le_of_mem_utf8EncodeChar (Nat.le_of_not_lt hlarge) hmem) (UInt8.not_le.mpr hb)
  exact ⟨['-', c], s, String.toList_ofList, length_encode_letter hc⟩

theorem ofOption_ofList (c : Char) (s : List Char) :
    ofOption (String.ofList ('-' :: c :: s)) =
      if c.toNat < 128 then
        if c = '-' then
          if s = [] then .terminator else .refused (badOption (String.ofList ('-' :: c :: s)))
        else
          match Switch.ofLetter? c with
          | none => .refused (badOption (String.ofList ('-' :: c :: s)))
          | some switch => if s = [] then .bare switch else .glued switch (String.ofList s)
      else .refused (badOption (String.ofList ('-' :: c :: s))) := by
  obtain ⟨b, hmem, hsecond⟩ := exists_second_byte c s
  by_cases hc : c.toNat < 128
  · obtain rfl : b = UInt8.ofNat c.toNat := by
      rwa [Text.utf8EncodeChar_ascii hc, List.mem_singleton] at hmem
    have hsmall : ¬ 128 ≤ UInt8.ofNat c.toNat := by
      rw [UInt8.le_iff_toNat_le]
      simp only [UInt8.toNat_ofNat', UInt8.reduceToNat]
      omega
    have hletter : Char.ofNat (UInt8.ofNat c.toNat).toNat = c := by
      have hmod : (UInt8.ofNat c.toNat).toNat = c.toNat := by
        simp only [UInt8.toNat_ofNat']
        omega
      rw [hmod, Char.ofNat_toNat]
    have hrest : Text.from? (String.ofList ('-' :: c :: s)) 2 = some (String.ofList s) := by
      have h := Text.from?_ofList_append ['-', c] s
      rwa [length_encode_letter hc] at h
    have hempty : String.ofList s = "" ↔ s = [] := by
      rw [← String.toList_inj, String.toList_ofList]
      rfl
    rw [if_pos hc, ofOption, hsecond]
    dsimp only
    rw [if_neg hsmall, hrest, hletter]
    cases Switch.ofLetter? c with
    | none => simp only [hempty]
    | some switch => simp only [hempty]
  · have hlarge : 128 ≤ b := Text.le_of_mem_utf8EncodeChar (by omega) hmem
    rw [if_neg hc, ofOption, hsecond]
    dsimp only
    rw [if_pos hlarge]

theorem of_ofList (policy : LongOptionPolicy) (c : Char) (s : List Char) :
    of policy (String.ofList ('-' :: c :: s)) =
      if c = '-' ∧ s ≠ [] then ofLong policy (String.ofList ('-' :: c :: s))
      else ofOption (String.ofList ('-' :: c :: s)) := by
  have h := isLongOption_ofList_iff c s
  unfold of
  rw [String.toList_ofList]
  simp only [h]

theorem cases (token : String) :
    token = "-" ∨ (∀ policy, of policy token = .operand) ∨
      ∃ c s, token = String.ofList ('-' :: c :: s) := by
  have htoken := String.ofList_toList (s := token)
  cases hs : token.toList with
  | nil =>
    refine Or.inr (Or.inl fun policy => ?_)
    simp [of, hs]
  | cons c s =>
    rw [hs] at htoken
    by_cases hc : c = '-'
    · subst hc
      cases s with
      | nil => exact Or.inl htoken.symm
      | cons d s => exact Or.inr (Or.inr ⟨d, s, htoken.symm⟩)
    · refine Or.inr (Or.inl fun policy => ?_)
      unfold of
      rw [hs]
      split
      · rename_i h
        exact absurd (List.cons.inj h).1 hc
      · rename_i h
        exact absurd (List.cons.inj h).1 hc
      · rfl

theorem of_hyphen (policy : LongOptionPolicy) : of policy "-" = .dash := rfl

theorem ofLong_cases (policy : LongOptionPolicy) {s : List Char} (h : s ≠ []) :
    (∃ reported, ofLong policy (String.ofList ('-' :: '-' :: s)) = .skipped reported) ∨
      ofLong policy (String.ofList ('-' :: '-' :: s)) =
        .refused (badOption (String.ofList ('-' :: '-' :: s))) := by
  have hoption := ofOption_ofList '-' s
  rw [if_pos (by decide), if_pos rfl, if_neg h] at hoption
  cases policy with
  | reject => exact Or.inr rfl
  | warn => exact Or.inl ⟨true, rfl⟩
  | ignore => exact Or.inl ⟨false, rfl⟩
  | allow => exact Or.inr hoption

theorem of_switch (policy : LongOptionPolicy) (switch : Switch) (s : List Char) :
    of policy (String.ofList ('-' :: switch.letter :: s)) =
      if s = [] then .bare switch else .glued switch (String.ofList s) := by
  rw [of_ofList, if_neg (fun h => switch.letter_ne_hyphen h.1), ofOption_ofList,
    if_pos switch.letter_toNat_lt, if_neg switch.letter_ne_hyphen, Switch.ofLetter?_letter]

theorem of_token (policy : LongOptionPolicy) (switch : Switch) :
    of policy switch.token = .bare switch := by
  rw [Switch.token, of_switch, if_pos rfl]

theorem of_gluedToken (policy : LongOptionPolicy) (switch : Switch) {value : String}
    (h : value ≠ "") : of policy (switch.gluedToken value) = .glued switch value := by
  have hne : value.toList ≠ [] := fun hnil => h (String.toList_eq_nil_iff.mp hnil)
  rw [Switch.gluedToken, of_switch, if_neg hne, String.ofList_toList]

theorem of_terminator (policy : LongOptionPolicy) : of policy "--" = .terminator := by
  have h := of_ofList policy '-' []
  rwa [if_neg (by simp), ofOption_ofList, if_pos (by decide), if_pos rfl, if_pos rfl] at h

theorem ofList_eq_gluedToken (switch : Switch) (s : List Char) :
    String.ofList ('-' :: switch.letter :: s) = switch.gluedToken (String.ofList s) := by
  rw [Switch.gluedToken, String.toList_ofList]

/-- What a token can be: an operand, a lone hyphen, skipped, refused, the terminator, or a switch
with or without its value. -/
theorem of_cases (policy : LongOptionPolicy) (token : String) :
    of policy token = .operand ∨ token = "-" ∨ (∃ reported, of policy token = .skipped reported) ∨
      (∃ fault, of policy token = .refused fault) ∨ token = "--" ∨
      (∃ switch : Switch, token = switch.token) ∨
      ∃ (switch : Switch) (value : String), value ≠ "" ∧ token = switch.gluedToken value := by
  rcases cases token with rfl | hoperand | ⟨c, s, rfl⟩
  · exact Or.inr (Or.inl rfl)
  · exact Or.inl (hoperand policy)
  · by_cases hc : c = '-'
    · subst hc
      by_cases hs : s = []
      · subst hs
        exact Or.inr (Or.inr (Or.inr (Or.inr (Or.inl rfl))))
      · rw [of_ofList, if_pos ⟨rfl, hs⟩]
        rcases ofLong_cases policy hs with h | h
        · exact Or.inr (Or.inr (Or.inl h))
        · exact Or.inr (Or.inr (Or.inr (Or.inl ⟨_, h⟩)))
    · cases hswitch : Switch.ofLetter? c with
      | none =>
        refine Or.inr (Or.inr (Or.inr (Or.inl ⟨badOption (String.ofList ('-' :: c :: s)), ?_⟩)))
        rw [of_ofList, if_neg (fun h => hc h.1), ofOption_ofList, if_neg hc, hswitch, ite_self]
      | some switch =>
        obtain rfl := Switch.letter_of_ofLetter? hswitch
        refine Or.inr (Or.inr (Or.inr (Or.inr (Or.inr ?_))))
        by_cases hs : s = []
        · subst hs
          exact Or.inl ⟨switch, rfl⟩
        · refine Or.inr ⟨switch, String.ofList s, ?_, ofList_eq_gluedToken switch s⟩
          intro hempty
          apply hs
          rw [← String.toList_ofList (l := s), hempty]
          rfl

theorem of_eq_bare_iff {policy : LongOptionPolicy} {token : String} {switch : Switch} :
    of policy token = .bare switch ↔ token = switch.token := by
  constructor
  · intro h
    rcases of_cases policy token with
      ho | rfl | ⟨_, hs⟩ | ⟨_, hr⟩ | rfl | ⟨other, rfl⟩ | ⟨other, value, hne, rfl⟩
    all_goals simp_all [of_hyphen, of_terminator, of_token, of_gluedToken]
  · rintro rfl
    exact of_token policy switch

theorem of_eq_glued_iff {policy : LongOptionPolicy} {token value : String} {switch : Switch} :
    of policy token = .glued switch value ↔ value ≠ "" ∧ token = switch.gluedToken value := by
  constructor
  · intro h
    rcases of_cases policy token with
      ho | rfl | ⟨_, hs⟩ | ⟨_, hr⟩ | rfl | ⟨other, rfl⟩ | ⟨other, value, hne, rfl⟩
    all_goals simp_all [of_hyphen, of_terminator, of_token, of_gluedToken]
  · rintro ⟨hne, rfl⟩
    exact of_gluedToken policy switch hne

theorem of_eq_terminator_iff {policy : LongOptionPolicy} {token : String} :
    of policy token = .terminator ↔ token = "--" := by
  constructor
  · intro h
    rcases of_cases policy token with
      ho | rfl | ⟨_, hs⟩ | ⟨_, hr⟩ | rfl | ⟨other, rfl⟩ | ⟨other, value, hne, rfl⟩
    all_goals simp_all [of_hyphen, of_terminator, of_token, of_gluedToken]
  · rintro rfl
    exact of_terminator policy

theorem of_eq_dash_iff {policy : LongOptionPolicy} {token : String} :
    of policy token = .dash ↔ token = "-" := by
  constructor
  · intro h
    rcases of_cases policy token with
      ho | rfl | ⟨_, hs⟩ | ⟨_, hr⟩ | rfl | ⟨other, rfl⟩ | ⟨other, value, hne, rfl⟩
    all_goals simp_all [of_terminator, of_token, of_gluedToken]
  · rintro rfl
    rfl

theorem of_eq_of_not_long {token : String} (h : isLongOption token = false)
    (policy other : LongOptionPolicy) : of policy token = of other token := by
  unfold of
  rw [h]
  split <;> rfl

theorem exists_of_long {token : String} (h : isLongOption token = true) :
    ∃ s, s ≠ [] ∧ token = String.ofList ('-' :: '-' :: s) := by
  unfold isLongOption at h
  split at h
  · rename_i c s hs
    refine ⟨c :: s, by simp, ?_⟩
    rw [← hs, String.ofList_toList]
  · cases h

theorem of_long {token : String} (h : isLongOption token = true) (policy : LongOptionPolicy) :
    of policy token =
      match policy with
      | .warn => .skipped true
      | .ignore => .skipped false
      | .reject | .allow => .refused (badOption token) := by
  obtain ⟨s, hs, rfl⟩ := exists_of_long h
  have hoption := ofOption_ofList '-' s
  rw [if_pos (by decide), if_pos rfl, if_neg hs] at hoption
  rw [of_ofList, if_pos ⟨rfl, hs⟩]
  cases policy with
  | reject | warn | ignore => rfl
  | allow => exact hoption

theorem ofOption_ne_skipped (token : String) (reported : Bool) :
    ofOption token ≠ .skipped reported := by
  unfold ofOption
  split
  · simp
  · split_ifs
    · simp
    · split
      · simp
      · dsimp only
        split_ifs
        · simp
        · simp
        · split <;> simp
        · split <;> simp

theorem long_of_skipped {policy : LongOptionPolicy} {token : String} {reported : Bool}
    (h : of policy token = .skipped reported) : isLongOption token = true := by
  unfold of at h
  split at h
  · cases h
  · split_ifs at h with hlong
    · exact hlong
    · exact absurd h (ofOption_ne_skipped token reported)
  · cases h

theorem fault_of_refused {policy : LongOptionPolicy} {token : String} {fault : StartupError}
    (h : of policy token = .refused fault) : fault = badOption token := by
  rcases cases token with rfl | hoperand | ⟨c, s, rfl⟩
  · cases h
  · rw [hoperand] at h
    cases h
  · cases hlong : isLongOption (String.ofList ('-' :: c :: s)) with
    | true =>
      rw [of_long hlong] at h
      cases policy with
      | reject | allow => exact (Token.refused.inj h).symm
      | warn | ignore => cases h
    | false =>
      have hoption : ¬ (c = '-' ∧ s ≠ []) := by
        rw [← isLongOption_ofList_iff, hlong]
        exact Bool.false_ne_true
      rw [of_ofList, if_neg hoption, ofOption_ofList] at h
      split_ifs at h
      · exact (Token.refused.inj h).symm
      · split at h
        · exact (Token.refused.inj h).symm
        · cases h
      · split at h
        · exact (Token.refused.inj h).symm
        · cases h
      · exact (Token.refused.inj h).symm

end Token
end AwkStartup
