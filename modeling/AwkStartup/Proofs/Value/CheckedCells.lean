import AwkStartup.Proofs.Number.Numerals
import AwkStartup.Value.Cell

/-!
# Checking cells that may be numeric

A text from outside is settled by its grammar: a numeral with blanks around it becomes a numeric
string, and any other text a string. The cell keeps its text, and checking it again does nothing.
-/

namespace AwkStartup

theorem Leading.isDigit_iff (c : Char) : isDigit c = true ↔ c ∈ "0123456789".toList := by
  constructor
  · intro h
    obtain ⟨hlow, hhigh⟩ := isDigit_iff_toNat.mp h
    rw [← Char.ofNat_toNat c]
    generalize c.toNat = code at hlow hhigh
    interval_cases code <;> decide
  · exact List.all_eq_true.mp (by decide : "0123456789".toList.all isDigit = true) c

theorem Text.isBlank_iff (c : Char) : isBlank c = true ↔ c ∈ " \t\n\r\x0b\x0c".toList := by
  simp [isBlank, or_assoc]

namespace Numeral

theorem value?_append {before after : String} (hbefore : Text.IsBlankText before.toList)
    (hafter : Text.IsBlankText after.toList) (text : String) :
    value? (before ++ text ++ after) = value? text := by
  rw [value?, String.toList_append, String.toList_append, List.append_assoc,
    Text.trimBlanks_append hbefore hafter, value?]

end Numeral

namespace Cell

theorem check_of_looksNumeric {text : String} (h : Numeral.LooksNumeric text) :
    ∃ x, Numeral.value? text = some x ∧ (maybeNumeric text).check = numericString text x := by
  obtain ⟨x, hx⟩ := Option.isSome_iff_exists.mp ((Numeral.isSome_value? text).mpr h)
  exact ⟨x, hx, by rw [check, hx]⟩

theorem check_of_not_looksNumeric {text : String} (h : ¬Numeral.LooksNumeric text) :
    (maybeNumeric text).check = string text := by
  have hnone : Numeral.value? text = none := by
    rwa [← Option.not_isSome_iff_eq_none, Numeral.isSome_value?]
  rw [check, hnone]

theorem check_of_settled {c : Cell} (h : c.isMaybeNumeric = false) : c.check = c := by
  cases c with
  | maybeNumeric text => cases h
  | _ => rfl

/-- A text looks like a number exactly when it is a numeral of ASCII digits with ASCII blanks around
it, and more blanks around it do not change its value. Checking a cell that may be numeric makes it
a numeric string of this value exactly for these texts, and a string for all others; other cells
stay as they are. Every cell keeps its text and its written form, and is settled after one check. -/
theorem numeric_cells_are_numerals :
    (∀ text, (Numeral.value? text).isSome = true ↔ Numeral.LooksNumeric text) ∧
    (∀ c, Leading.isDigit c = true ↔ c ∈ "0123456789".toList) ∧
    (∀ c, Text.isBlank c = true ↔ c ∈ " \t\n\r\x0b\x0c".toList) ∧
    (∀ before text after : String, Text.IsBlankText before.toList →
      Text.IsBlankText after.toList →
        Numeral.value? (before ++ text ++ after) = Numeral.value? text) ∧
    (∀ text,
      ((∃ x, Numeral.value? text = some x ∧
        (maybeNumeric text).check = numericString text x) ↔ Numeral.LooksNumeric text) ∧
      ((maybeNumeric text).check = string text ↔ ¬Numeral.LooksNumeric text)) ∧
    ∀ c : Cell, (c.isMaybeNumeric = false → c.check = c) ∧ c.check.text? = c.text? ∧
      c.check.display = c.display ∧ c.check.check = c.check := by
  refine ⟨Numeral.isSome_value?, Leading.isDigit_iff, Text.isBlank_iff, ?_, ?_, ?_⟩
  · intro before text after hbefore hafter
    exact Numeral.value?_append hbefore hafter text
  · intro text
    refine ⟨⟨?_, check_of_looksNumeric⟩, ⟨?_, check_of_not_looksNumeric⟩⟩
    · rintro ⟨x, hx, -⟩
      exact (Numeral.isSome_value? text).mp (Option.isSome_of_mem hx)
    · intro hstring hlooks
      obtain ⟨x, -, hnumeric⟩ := check_of_looksNumeric hlooks
      rw [hnumeric] at hstring
      cases hstring
  · intro c
    exact ⟨check_of_settled, text?_check c, display_check c, check_check c⟩

/-- A numeral without whole digits between blanks, and a text with a blank inside. -/
theorem numeric_cells_are_numerals_surrounded :
    (Text.IsBlankText "\x0b ".toList ∧ Text.IsBlankText "\r\n".toList ∧
      Numeral.value? ("\x0b " ++ "-.5E+07" ++ "\r\n") = Numeral.value? "-.5E+07") ∧
    Numeral.LooksNumeric "-.5E+07" ∧
    ((maybeNumeric "1 2").isMaybeNumeric = true ∧ ¬Numeral.LooksNumeric "1 2" ∧
      (maybeNumeric "1 2").check = string "1 2") ∧
    (string " 7 ").isMaybeNumeric = false ∧ (string " 7 ").check = string " 7 " := by
  obtain ⟨hvalue, -, -, hblanks, hcheck, hsettled⟩ := numeric_cells_are_numerals
  have hbefore : Text.IsBlankText "\x0b ".toList := List.all_eq_true.mp (by decide)
  have hafter : Text.IsBlankText "\r\n".toList := List.all_eq_true.mp (by decide)
  have hinner : ¬Numeral.LooksNumeric "1 2" := by
    rw [← hvalue]
    decide
  refine ⟨⟨hbefore, hafter, hblanks _ _ _ hbefore hafter⟩, (hvalue _).mp (by decide),
    ⟨rfl, hinner, (hcheck _).2.mpr hinner⟩, rfl, (hsettled _).1 rfl⟩

end Cell
end AwkStartup
