import AwkStartup.Number.Binary64
import Mathlib.Tactic

/-!
# Integers that are doubles

An integer of at most 53 bits fits the significand of a double, so rounding leaves it as it is.
-/

namespace AwkStartup
namespace Binary64

theorem shift_natCast (num den k : Nat) : shift num den (k : Int) = (num * 2 ^ k, den) := by
  rw [shift, if_pos (Int.natCast_nonneg k), Int.toNat_natCast, Nat.shiftLeft_eq]

theorem shift_neg_natCast (num den k : Nat) :
    shift num den (-(k : Int)) = (num, den * 2 ^ k) := by
  cases k with
  | zero => simp [shift]
  | succ k =>
    rw [shift, if_neg (by omega), Nat.shiftLeft_eq]
    congr 3

section Fields

variable {exponent fraction : Nat}

theorem magnitude_lt_signBit (hexponent : exponent < 2048) (hfraction : fraction < exponentBit) :
    exponent * exponentBit + fraction < signBit := by
  unfold exponentBit at hfraction ⊢
  unfold signBit
  omega

theorem toNat_bits_ofMagnitude (negative : Bool) {magnitude : Nat} (h : magnitude < signBit) :
    (ofMagnitude negative magnitude).bits.toNat =
      if negative then magnitude + signBit else magnitude := by
  unfold signBit at h
  rw [ofMagnitude, UInt64.toNat_ofNat']
  apply Nat.mod_eq_of_lt
  unfold signBit
  split_ifs <;> omega

theorem negative_ofMagnitude (negative : Bool) {magnitude : Nat} (h : magnitude < signBit) :
    (ofMagnitude negative magnitude).negative = negative := by
  rw [Binary64.negative, toNat_bits_ofMagnitude negative h]
  cases negative with
  | false => simpa using h
  | true => simp

theorem exponentField_ofMagnitude (negative : Bool) (hexponent : exponent < 2048)
    (hfraction : fraction < exponentBit) :
    (ofMagnitude negative (exponent * exponentBit + fraction)).exponentField = exponent := by
  rw [exponentField, toNat_bits_ofMagnitude negative (magnitude_lt_signBit hexponent hfraction)]
  unfold exponentBit at hfraction ⊢
  unfold signBit
  split_ifs <;> omega

theorem fractionField_ofMagnitude (negative : Bool) (hexponent : exponent < 2048)
    (hfraction : fraction < exponentBit) :
    (ofMagnitude negative (exponent * exponentBit + fraction)).fractionField = fraction := by
  rw [fractionField, toNat_bits_ofMagnitude negative (magnitude_lt_signBit hexponent hfraction)]
  unfold exponentBit at hfraction ⊢
  unfold signBit
  split_ifs <;> omega

end Fields

theorem integer?_eq_some {x : Binary64} {k m : Nat} (hfinite : x.isFinite = true)
    (hscale : x.scale = -(k : Int)) (hsignificand : x.significand = m * 2 ^ k) :
    x.integer? = some ((if x.negative then -1 else 1) * (m : Int)) := by
  have hpos : 0 < 2 ^ k := Nat.two_pow_pos k
  unfold integer?
  rw [hscale, hsignificand, shift_neg_natCast, Nat.one_mul]
  dsimp only
  rw [if_pos ⟨hfinite, Nat.mul_mod_left m _⟩, Nat.mul_div_cancel m hpos]

theorem floorLog2_one {m : Nat} (hm : m ≠ 0) : floorLog2 m 1 = m.log2 := by
  have hlog : 2 ^ m.log2 ≤ m := Nat.log2_self_le hm
  have hone : Nat.log2 1 = 0 := by decide
  unfold floorLog2
  dsimp only
  rw [hone, Nat.cast_zero, sub_zero, shift_neg_natCast, Nat.one_mul]
  exact if_neg (Nat.not_lt.mpr hlog)

theorem roundHalfEven_one (m : Nat) : roundHalfEven m 1 = m := by
  simp [roundHalfEven, Nat.mod_one]

theorem mul_pow_lt {m : Nat} (hlog : m.log2 ≤ 52) : m * 2 ^ (52 - m.log2) < 2 * exponentBit := by
  calc
    m * 2 ^ (52 - m.log2) < 2 ^ (m.log2 + 1) * 2 ^ (52 - m.log2) :=
      Nat.mul_lt_mul_of_pos_right Nat.lt_log2_self (Nat.two_pow_pos _)
    _ = 2 * exponentBit := by
      rw [← Nat.pow_add, show m.log2 + 1 + (52 - m.log2) = 53 by omega]
      rfl

/-- An integer below `2 ^ 53` is shifted to fill the significand, and nothing is rounded. -/
theorem nearestMagnitude_one {m : Nat} (hm : m ≠ 0) (hlog : m.log2 ≤ 52) :
    nearestMagnitude m 1 = (1022 + m.log2) * exponentBit + m * 2 ^ (52 - m.log2) := by
  have hshift : min ((52 : Int) - m.log2) 1074 = ((52 - m.log2 : Nat) : Int) := by omega
  have hexponent : (1074 - ((52 - m.log2 : Nat) : Int)).toNat = 1022 + m.log2 := by omega
  have hlt := mul_pow_lt hlog
  unfold nearestMagnitude
  dsimp only
  rw [if_neg hm, floorLog2_one hm, hshift, shift_natCast]
  dsimp only
  rw [hexponent, roundHalfEven_one]
  apply Nat.min_eq_left
  unfold exponentBit at hlt ⊢
  unfold infinityBits
  omega

theorem integer?_ofRatio_one (negative : Bool) {m : Nat} (hm : m ≠ 0) (hlog : m.log2 ≤ 52) :
    (ofRatio negative m 1).integer? = some ((if negative then -1 else 1) * (m : Int)) := by
  have hlow : exponentBit ≤ m * 2 ^ (52 - m.log2) := by
    calc
      exponentBit = 2 ^ m.log2 * 2 ^ (52 - m.log2) := by
        rw [← Nat.pow_add, Nat.add_sub_cancel' hlog]
        rfl
      _ ≤ m * 2 ^ (52 - m.log2) := Nat.mul_le_mul_right _ (Nat.log2_self_le hm)
  have hhigh := mul_pow_lt hlog
  obtain ⟨fraction, hfraction⟩ := Nat.exists_eq_add_of_le hlow
  have hlt : fraction < exponentBit := by omega
  have hexponent : 1023 + m.log2 < 2048 := by omega
  -- The leading bit of the significand carries into the exponent.
  have hcarry : (1022 + m.log2) * exponentBit + (exponentBit + fraction) =
      (1023 + m.log2) * exponentBit + fraction := by ring
  have hratio : ofRatio negative m 1 =
      ofMagnitude negative ((1023 + m.log2) * exponentBit + fraction) := by
    rw [ofRatio, nearestMagnitude_one hm hlog, hfraction, hcarry]
  have hfield := exponentField_ofMagnitude negative hexponent hlt
  have hsign := negative_ofMagnitude negative (magnitude_lt_signBit hexponent hlt)
  rw [hratio, integer?_eq_some (k := 52 - m.log2) (m := m), hsign]
  · rw [isFinite, hfield, decide_eq_true_eq]
    omega
  · rw [scale, hfield, if_neg (by omega)]
    omega
  · rw [significand, hfield, fractionField_ofMagnitude negative hexponent hlt,
      if_neg (by omega), hfraction]

theorem integer?_ofInt {n : Int} (h : n.natAbs ≤ 2 ^ 53) : (ofInt n).integer? = some n := by
  by_cases hzero : n = 0
  · subst hzero
    decide
  by_cases hlog : n.natAbs.log2 ≤ 52
  · have hm : n.natAbs ≠ 0 := Int.natAbs_ne_zero.mpr hzero
    rw [ofInt, integer?_ofRatio_one _ hm hlog]
    congr 1
    by_cases hneg : n < 0
    · rw [decide_eq_true hneg, if_pos rfl]
      omega
    · rw [decide_eq_false hneg, if_neg Bool.false_ne_true]
      omega
  · have hpow : 2 ^ 53 ≤ n.natAbs := by
      rw [← Nat.le_log2 (Int.natAbs_ne_zero.mpr hzero)]
      omega
    rcases Int.natAbs_eq n with hpos | hneg
    · obtain rfl : n = 2 ^ 53 := by omega
      rfl
    · obtain rfl : n = -2 ^ 53 := by omega
      rfl

end Binary64
end AwkStartup
