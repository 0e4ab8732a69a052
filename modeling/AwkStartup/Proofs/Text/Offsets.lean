import AwkStartup.Text.Utf8
import Mathlib.Tactic

/-!
# Byte offsets between characters

An offset into a text is the length of the encoded beginning before it. At such an offset the
bytes of the rest are the encoding of the rest, the text can be cut there, and a run of bytes that
is bounded by ASCII signs is a run of characters.
-/

namespace AwkStartup
namespace Text

theorem utf8EncodeChar_ascii {c : Char} (h : c.toNat < 128) :
    String.utf8EncodeChar c = [UInt8.ofNat c.toNat] := by
  have hv : c.val.toNat ≤ 0x7f := Nat.le_of_lt_succ h
  exact if_pos hv

theorem le_of_mem_utf8EncodeChar {c : Char} (h : 128 ≤ c.toNat) {b : UInt8}
    (hb : b ∈ String.utf8EncodeChar c) : 128 ≤ b := by
  have hv : ¬ c.val.toNat ≤ 0x7f := Nat.not_le_of_lt h
  rw [UInt8.le_iff_toNat_le]
  simp only [String.utf8EncodeChar, hv, if_false] at hb
  split_ifs at hb
  all_goals
    simp only [List.mem_cons, List.not_mem_nil, or_false] at hb
    rcases hb with rfl | rfl | rfl | rfl
  all_goals
    simp only [UInt8.toNat_ofNat', UInt8.reduceToNat]
    omega

theorem eq_of_mem_utf8EncodeChar {a c : Char} (ha : a.toNat < 128)
    (h : UInt8.ofNat a.toNat ∈ String.utf8EncodeChar c) : c = a := by
  by_cases hc : c.toNat < 128
  · rw [utf8EncodeChar_ascii hc, List.mem_singleton] at h
    have hn := congrArg UInt8.toNat h
    simp only [UInt8.toNat_ofNat'] at hn
    apply Char.ext
    apply UInt32.toNat_inj.mp
    change c.toNat = a.toNat
    omega
  · have hb := le_of_mem_utf8EncodeChar (by omega) h
    rw [UInt8.le_iff_toNat_le] at hb
    simp only [UInt8.toNat_ofNat', UInt8.reduceToNat] at hb
    omega

/-- A run of bytes is a run of characters when each character of the run is made of bytes of the
run and each other character starts with another byte. -/
theorem takeWhile_encode {q : UInt8 → Bool} {r : Char → Bool}
    (inside : ∀ c, r c = true → ∀ b ∈ String.utf8EncodeChar c, q b = true)
    (outside : ∀ c, r c = false → ∀ b, (String.utf8EncodeChar c).head? = some b → q b = false)
    (s : List Char) : (encode s).takeWhile q = encode (s.takeWhile r) := by
  induction s with
  | nil => rfl
  | cons c s ih =>
    rw [encode_cons]
    cases hc : r c with
    | true => rw [List.takeWhile_append_of_pos (inside c hc), List.takeWhile_cons_of_pos hc, ih,
        encode_cons]
    | false =>
      obtain ⟨b, bs, he⟩ := List.exists_cons_of_ne_nil (String.utf8EncodeChar_ne_nil (c := c))
      have hb := outside c hc b (by rw [he]; rfl)
      rw [he, List.cons_append, List.takeWhile_cons_of_neg (by simp [hb]),
        List.takeWhile_cons_of_neg (by simp [hc])]
      rfl

theorem encode_head?_eq_iff {a : Char} (ha : a.toNat < 128) (s : List Char) :
    (encode s).head? = some (UInt8.ofNat a.toNat) ↔ s.head? = some a := by
  cases s with
  | nil => simp
  | cons c s =>
    obtain ⟨b, bs, he⟩ := List.exists_cons_of_ne_nil (String.utf8EncodeChar_ne_nil (c := c))
    simp only [encode_cons, he, List.cons_append, List.head?_cons, Option.some.injEq]
    constructor
    · intro hb
      apply eq_of_mem_utf8EncodeChar ha
      rw [he, ← hb]
      exact List.mem_cons_self
    · intro hc
      rw [hc, utf8EncodeChar_ascii ha] at he
      exact (List.cons.inj he).1.symm

theorem getElem?_encode_append (s t : List Char) :
    (encode (s ++ t))[(encode s).length]? = (encode t).head? := by
  rw [encode_append, List.getElem?_append_right le_rfl, Nat.sub_self, List.head?_eq_getElem?]

theorem drop_encode_append (s t : List Char) :
    (encode (s ++ t)).drop (encode s).length = encode t := by
  rw [encode_append, List.drop_left]

theorem dropBytes?_encode_append (s t : List Char) :
    dropBytes? (encode s).length (s ++ t) = some t := by
  induction s with
  | nil => simp
  | cons c s ih =>
    have hpos := c.utf8Size_pos
    have hlen : (encode (c :: s)).length = c.utf8Size + (encode s).length := by simp
    obtain ⟨n, hn⟩ : ∃ n, c.utf8Size + (encode s).length = n + 1 := ⟨_, (Nat.succ_pred (by omega)).symm⟩
    rw [hlen, hn, List.cons_append, dropBytes?, if_pos (by omega), ← hn, Nat.add_sub_cancel_left, ih]

theorem from?_ofList_append (s t : List Char) :
    from? (String.ofList (s ++ t)) (encode s).length = some (String.ofList t) := by
  simp [from?, dropBytes?_encode_append]

theorem dropBytes?_append {n : Nat} {s : List Char} (h : n ≤ (encode s).length)
    (t : List Char) : dropBytes? n (s ++ t) = (dropBytes? n s).map (· ++ t) := by
  induction s generalizing n with
  | nil =>
    obtain rfl : n = 0 := Nat.le_zero.mp h
    simp
  | cons c s ih =>
    cases n with
    | zero => rfl
    | succ n =>
      rw [encode_cons, List.length_append, String.length_utf8EncodeChar] at h
      rw [List.cons_append, dropBytes?, dropBytes?]
      split_ifs with hsize
      · exact ih (by omega)
      · rfl

theorem from?_append {n : Nat} {text : String} (h : n ≤ (bytes text).length)
    (more : String) : from? (text ++ more) n = (from? text n).map (· ++ more) := by
  rw [from?, from?, String.toList_append, dropBytes?_append h, Option.map_map, Option.map_map]
  congr 1
  funext s
  simp

/-- An offset between two characters of a text, or at one of its ends. -/
def IsBoundary (text : String) (offset : Nat) : Prop :=
  ∃ before after, text.toList = before ++ after ∧ (encode before).length = offset

theorem IsBoundary.le_length {text : String} {offset : Nat} (h : IsBoundary text offset) :
    offset ≤ (bytes text).length := by
  obtain ⟨before, after, htext, rfl⟩ := h
  rw [bytes, htext, encode_append, List.length_append]
  omega

theorem exists_of_dropBytes? {n : Nat} {s rest : List Char} (h : dropBytes? n s = some rest) :
    ∃ before, s = before ++ rest ∧ (encode before).length = n := by
  induction s generalizing n with
  | nil =>
    cases n with
    | zero => exact ⟨[], Option.some.inj h, rfl⟩
    | succ n => cases h
  | cons c s ih =>
    cases n with
    | zero => exact ⟨[], Option.some.inj h, rfl⟩
    | succ n =>
      rw [dropBytes?] at h
      split_ifs at h with hle
      obtain ⟨before, hs, hlength⟩ := ih h
      refine ⟨c :: before, ?_, ?_⟩
      · rw [hs, List.cons_append]
      · rw [encode_cons, List.length_append, String.length_utf8EncodeChar, hlength]
        omega

theorem isSome_from?_iff (text : String) (offset : Nat) :
    (from? text offset).isSome = true ↔ IsBoundary text offset := by
  constructor
  · intro h
    obtain ⟨rest, hrest⟩ := Option.isSome_iff_exists.mp h
    obtain ⟨after, hafter, -⟩ := Option.map_eq_some_iff.mp hrest
    obtain ⟨before, htext, hlength⟩ := exists_of_dropBytes? hafter
    exact ⟨before, after, htext, hlength⟩
  · rintro ⟨before, after, htext, rfl⟩
    rw [from?, htext, dropBytes?_encode_append]
    rfl

end Text
end AwkStartup
