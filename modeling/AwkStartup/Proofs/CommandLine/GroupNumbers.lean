import AwkStartup.Proofs.CommandLine.PieceOffsets
import AwkStartup.Proofs.Number.LeadingParts
import AwkStartup.Proofs.Number.Words
import Mathlib.Tactic

/-!
# Numbers in groups

An option that needs a number reads the integer at the front of the text behind its equals sign. That
text goes on to the end of the group, but nothing behind the next comma counts: not for whether there
is a number, not for the number, and not for where the group goes on.
-/

namespace AwkStartup

theorem Text.bytes_append_comma (text later : String) :
    bytes (text ++ "," ++ later) = bytes text ++ Abbreviation.comma :: bytes later := by
  rw [bytes, bytes, bytes, String.toList_append, String.toList_append, encode_append,
    encode_append, List.append_assoc]
  rfl

namespace Abbreviation

variable {text : List UInt8} {offset : Nat}

theorem getElem?_append_comma (h : offset ≤ text.length) (later : List UInt8) :
    (text ++ comma :: later)[offset]? = text[offset]?.or (some comma) := by
  rcases h.lt_or_eq with hlt | rfl
  · rw [List.getElem?_append_left hlt, List.getElem?_eq_getElem hlt]
    rfl
  · simp

theorem hasValue_append_comma (h : offset ≤ text.length) (later : List UInt8) :
    hasValue (text ++ comma :: later) offset = hasValue text offset := by
  rw [hasValue_eq_any, hasValue_eq_any, getElem?_append_comma h]
  rcases h.lt_or_eq with hlt | rfl
  · rw [getElem?_append_comma hlt, List.getElem?_eq_getElem hlt]
    cases text[offset + 1]? with
    | none => rfl
    | some b => rfl
  · rw [List.getElem?_eq_none le_rfl]
    rfl

theorem skipValue?_append_comma (h : offset ≤ text.length) (later : List UInt8) :
    skipValue? (text ++ comma :: later) offset = skipValue? text offset := by
  have hle : ¬ (text ++ comma :: later).length < offset := by
    rw [List.length_append]
    omega
  rw [skipValue?, skipValue?, if_neg hle, if_neg (Nat.not_lt.mpr h),
    List.drop_append_of_le_length h, Text.takeWhile_append_stop (by decide)]

end Abbreviation

theorem Leading.integer?_append_comma (text later : String) :
    integer? (text ++ "," ++ later) = integer? text := by
  rw [integer?_eq_some, integer?_eq_some, String.toList_append, String.toList_append,
    List.append_assoc]
  exact congrArg some (integer_append_comma text.toList later.toList)

namespace Group

/-- A number in a group is that of the group cut at a later comma. -/
theorem numeric_append_comma {group : String} {offset : Nat}
    (h : offset ≤ (Text.bytes group).length) (later : String) (option : ImplementationOption)
    (directive : Int → Directive) :
    numeric (group ++ "," ++ later) option offset directive =
      numeric group option offset directive := by
  rw [numeric, numeric, Text.bytes_append_comma, Abbreviation.hasValue_append_comma h,
    Abbreviation.skipValue?_append_comma h]
  split_ifs with hvalue
  · have hlt : offset < (Text.bytes group).length := by
      by_contra hge
      rw [Abbreviation.hasValue_eq_any, List.getElem?_eq_none (Nat.le_of_not_lt hge)] at hvalue
      cases hvalue
    have hnumber : (Text.from? (group ++ "," ++ later) (offset + 1)).bind Leading.integer? =
        (Text.from? group (offset + 1)).bind Leading.integer? := by
      rw [String.append_assoc, Text.from?_append hlt]
      cases Text.from? group (offset + 1) with
      | none => rfl
      | some value =>
        rw [Option.map_some, Option.bind_some, Option.bind_some, ← String.append_assoc,
          Leading.integer?_append_comma]
    rw [hnumber]
  · rfl

end Group

namespace Leading

theorem exists_collected {digits : List Char} (hdigits : Numeral.IsDigits digits) :
    ∃ word, (Text.encode digits).foldlM Word.push? 0 = some word ∧
      word.toInt = min (Nat.ofDigitChars 10 digits 0 : Int) limit := by
  obtain ⟨word, hfold, hword⟩ := Word.exists_foldlM_push? (a := 0) le_rfl hdigits
  exact ⟨word, hfold, hword.trans (foldl_push_eq_min digits 0)⟩

/-- Every text starts with a longest part that denotes an integer, and the integer that is read is the
one denoted, kept within 64 bits on both sides of zero alike. In machine words no step overflows,
however many digits there are. Nothing behind a comma counts, neither for a text nor for a number in a
group. -/
theorem longest_part_saturates (text : String) :
    (∃ front n, Leads text.toList front n) ∧
    (∀ front n, Leads text.toList front n →
      integer? text = some (max (-(2 ^ 63 - 1)) (min n (2 ^ 63 - 1)))) ∧
    (∀ digits, Numeral.IsDigits digits →
      ∃ word, (Text.encode digits).foldlM Word.push? 0 = some word ∧
        word.toInt = min (Nat.ofDigitChars 10 digits 0 : Int) (2 ^ 63 - 1)) ∧
    (∃ word, Word.integer? text = some word ∧ integer? text = some word.toInt) ∧
    (∀ later, integer? (text ++ "," ++ later) = integer? text) ∧
    (∀ later option offset directive, offset ≤ (Text.bytes text).length →
      Group.numeric (text ++ "," ++ later) option offset directive =
        Group.numeric text option offset directive) := by
  refine ⟨⟨_, _, leads_iff.mpr ⟨rfl, rfl⟩⟩, ?_, fun digits h => exists_collected h, ?_,
    integer?_append_comma text, ?_⟩
  · intro front n hleads
    obtain ⟨-, rfl⟩ := leads_iff.mp hleads
    rw [integer?_eq_some, integer_eq_saturated]
    rfl
  · obtain ⟨word, hcollected, hword⟩ := Word.exists_integer? text
    exact ⟨word, hcollected, by rw [integer?_eq_some, hword]⟩
  · intro later option offset directive hoffset
    exact Group.numeric_append_comma hoffset later option directive

/-- A number below the least word is kept at the negation of the greatest one, one digit more than a
word can hold saturates, and the number of a group stays the same when more options follow. -/
theorem longest_part_saturates_below :
    Leads "\t-9223372036854775809.5".toList "\t-9223372036854775809".toList
        (-9223372036854775809) ∧
      integer? "\t-9223372036854775809.5" = some (-9223372036854775807) ∧
      Numeral.IsDigits "92233720368547758070".toList ∧
      (∃ word, (Text.encode "92233720368547758070".toList).foldlM Word.push? 0 = some word ∧
        word.toInt = min 92233720368547758070 (2 ^ 63 - 1)) ∧
      6 ≤ (Text.bytes "random=7").length ∧
      Group.numeric ("random=7" ++ "," ++ "9") .random 6 .random =
        Group.numeric "random=7" .random 6 .random := by
  have hleads : Leads "\t-9223372036854775809.5".toList "\t-9223372036854775809".toList
      (-9223372036854775809) := leads_iff.mpr (by decide +kernel)
  have hdigits : Numeral.IsDigits "92233720368547758070".toList :=
    List.all_eq_true.mp (by decide +kernel)
  have hlength : 6 ≤ (Text.bytes "random=7").length := by decide +kernel
  obtain ⟨-, hsaturates, hcollects, -⟩ :=
    longest_part_saturates "\t-9223372036854775809.5"
  exact ⟨hleads, hsaturates _ _ hleads, hdigits, hcollects _ hdigits, hlength,
    (longest_part_saturates "random=7").2.2.2.2.2 _ _ _ _ hlength⟩

end Leading
end AwkStartup
