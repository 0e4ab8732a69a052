import AwkStartup.Proofs.CommandLine.OptionalKeyword

/-!
# What a candidate stands for

A candidate stands for the keyword whose name it begins, in any case of its ASCII letters. No
candidate begins two names but the empty one, which begins all of them and stands for the version.
-/

namespace AwkStartup

namespace Abbreviation

theorem upper_of_toUpper {c n : Char} (hn : n.toNat < 128) (h : c.toUpper = n) :
    c.toNat < 128 ∧ upper (UInt8.ofNat c.toNat) = UInt8.ofNat n.toNat := by
  have hfolded := toNat_toUpper c
  rw [h] at hfolded
  have hc : c.toNat < 128 := by
    split_ifs at hfolded <;> omega
  refine ⟨hc, UInt8.toNat_inj.mp ?_⟩
  rw [toNat_upper, UInt8.toNat_ofNat', UInt8.toNat_ofNat', Nat.mod_eq_of_lt (by omega),
    Nat.mod_eq_of_lt (by omega), hfolded]

theorem abbreviates_iff {s name : List Char} (hname : ∀ n ∈ name, n.toNat < 128) :
    abbreviates (Text.encode s) (Text.encode name) = true ↔ s.map Char.toUpper <+: name := by
  refine ⟨isPrefix_of_abbreviates hname, ?_⟩
  intro h
  induction s generalizing name with
  | nil => simp [abbreviates]
  | cons c s ih =>
    cases name with
    | nil => cases List.prefix_nil.mp h
    | cons n name =>
      obtain ⟨hn, hname⟩ := List.forall_mem_cons.mp hname
      rw [List.map_cons, List.cons_prefix_cons] at h
      obtain ⟨hc, hupper⟩ := upper_of_toUpper hn h.1
      rw [Text.encode_cons, Text.encode_cons, Text.utf8EncodeChar_ascii hc,
        Text.utf8EncodeChar_ascii hn, List.singleton_append, List.singleton_append,
        abbreviates_cons, hupper, beq_self_eq_true, Bool.true_and]
      exact ih hname h.2

end Abbreviation

namespace ImplementationOption

/-- The option whose name a candidate begins, in any case of its letters. -/
def begun? (features : Features) (candidate : List Char) : Option ImplementationOption :=
  ((table features).find? fun k => candidate.map Char.toUpper <+: k.name.toList).map (·.code)

theorem ascii_of_mem_table {features : Features} {k : Abbreviation.Keyword ImplementationOption}
    (h : k ∈ table features) : ∀ n ∈ k.name.toList, n.toNat < 128 := by
  have hall : ((table features).all fun k => k.name.toList.all fun n => n.toNat < 128) = true := by
    cases hbinmode : features.binmode with
    | false =>
      simp only [table, hbinmode]
      decide
    | true =>
      simp only [table, hbinmode]
      decide
  intro n hn
  exact of_decide_eq_true (List.all_eq_true.mp (List.all_eq_true.mp hall k h) n hn)

theorem begun?_eq_head? (features : Features) (candidate : List Char) :
    begun? features candidate =
      (Abbreviation.candidates (table features) (Text.encode candidate)).head?.map (·.code) := by
  have hfilter : Abbreviation.candidates (table features) (Text.encode candidate) =
      (table features).filter fun k => candidate.map Char.toUpper <+: k.name.toList := by
    apply List.filter_congr
    intro k hk
    rw [Bool.eq_iff_iff, decide_eq_true_iff]
    exact Abbreviation.abbreviates_iff (ascii_of_mem_table hk)
  rw [begun?, hfilter, List.head?_filter]

theorem resolve_of_ne_nil (features : Features) {candidate : List Char} (h : candidate ≠ []) :
    Abbreviation.resolve (table features) (Text.encode candidate) =
      match begun? features candidate with
      | none => .unknown
      | some option => .unique option := by
  obtain ⟨c, s, rfl⟩ := List.exists_cons_of_ne_nil h
  obtain ⟨b, bs, hbytes⟩ := List.exists_cons_of_ne_nil (String.utf8EncodeChar_ne_nil (c := c))
  have hne := Abbreviation.resolve_ne_ambiguous (pairwise_table features) b (bs ++ Text.encode s)
  rw [← List.cons_append, ← hbytes, ← Text.encode_cons] at hne
  rw [begun?_eq_head?]
  unfold Abbreviation.resolve at hne ⊢
  split
  · rename_i hnone
    rw [hnone]
    rfl
  · rename_i only honly
    rw [honly]
    rfl
  · rename_i first second rest hseveral
    simp only [hseveral] at hne
    exact absurd rfl (hne _ _ _)

/-- The second keyword of a build. -/
def secondName (features : Features) : String :=
  if features.binmode then "BINMODE" else "DUMP"

theorem resolve_nil (features : Features) :
    Abbreviation.resolve (table features) [] =
      .ambiguous .version "VERSION" (secondName features) := by
  unfold Abbreviation.resolve
  rw [Abbreviation.candidates_nil]
  cases hbinmode : features.binmode with
  | false => simp [table, hbinmode, secondName]
  | true => simp [table, hbinmode, secondName]

end ImplementationOption
end AwkStartup
