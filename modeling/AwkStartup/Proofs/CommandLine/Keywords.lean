import AwkStartup.CommandLine.ImplementationOption
import Mathlib.Tactic

/-!
# Abbreviated keywords

The keywords start with different letters, so an abbreviation that is not empty stands for one
keyword at most, and the empty one stands for the first.
-/

namespace AwkStartup
namespace Abbreviation

theorem head?_of_abbreviates {b : UInt8} {candidate name : List UInt8}
    (h : abbreviates (b :: candidate) name = true) : name.head? = some (upper b) := by
  cases name with
  | nil => simp [abbreviates] at h
  | cons n name =>
    simp only [abbreviates, List.zip_cons_cons, List.all_cons, Bool.and_eq_true, beq_iff_eq] at h
    rw [List.head?_cons, h.2.1]

theorem candidates_nil {α : Type} (table : List (Keyword α)) : candidates table [] = table := by
  apply List.filter_eq_self.mpr
  intro k hk
  simp [abbreviates]

/-- Of keywords with different first bytes, one at most has an abbreviation that is not empty. -/
theorem resolve_ne_ambiguous {α : Type} {table : List (Keyword α)}
    (h : table.Pairwise fun k l => (Text.bytes k.name).head? ≠ (Text.bytes l.name).head?)
    (b : UInt8) (candidate : List UInt8) (code : α) (first second : String) :
    resolve table (b :: candidate) ≠ .ambiguous code first second := by
  intro hambiguous
  unfold resolve at hambiguous
  split at hambiguous
  · cases hambiguous
  · cases hambiguous
  · rename_i k l rest hcandidates
    have hpair : (k :: l :: rest).Pairwise fun k l =>
        (Text.bytes k.name).head? ≠ (Text.bytes l.name).head? := by
      rw [← hcandidates]
      exact h.filter _
    have hhead (m : Keyword α) (hm : m ∈ k :: l :: rest) :
        (Text.bytes m.name).head? = some (upper b) := by
      rw [← hcandidates] at hm
      exact head?_of_abbreviates (List.mem_filter.mp hm).2
    have hne := List.rel_of_pairwise_cons hpair (List.mem_cons_self : l ∈ l :: rest)
    apply hne
    rw [hhead k List.mem_cons_self, hhead l (by simp)]

end Abbreviation

namespace ImplementationOption

theorem pairwise_table (features : Features) :
    (table features).Pairwise fun k l => (Text.bytes k.name).head? ≠ (Text.bytes l.name).head? := by
  cases hb : features.binmode with
  | false =>
    simp only [table, hb]
    decide
  | true =>
    simp only [table, hb]
    decide

/-- Only the empty abbreviation is ambiguous, and it stands for the version. -/
theorem code_of_ambiguous {features : Features} {candidate : List UInt8}
    {code : ImplementationOption} {first second : String}
    (h : Abbreviation.resolve (table features) candidate = .ambiguous code first second) :
    code = .version := by
  cases candidate with
  | nil =>
    unfold Abbreviation.resolve at h
    rw [Abbreviation.candidates_nil] at h
    cases hb : features.binmode with
    | false =>
      simp only [table, hb] at h
      cases h
      rfl
    | true =>
      simp only [table, hb] at h
      cases h
      rfl
  | cons b candidate =>
    exact absurd h (Abbreviation.resolve_ne_ambiguous (pairwise_table features) _ _ _ _ _)

end ImplementationOption
end AwkStartup
