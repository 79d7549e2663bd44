import DesignLink.Proofs.Number.Rounding

/-!
Numbers in range: a quotient that is not too great is rounded to a finite number, which is at most
twice as great and at least half as great.
-/

namespace DesignLink

namespace Magnitude

theorem le_nearest (numerator denominator : Nat) :
    numerator / denominator ≤ nearest numerator denominator := by
  unfold nearest
  dsimp only
  split <;> omega

theorem nearest_le (numerator denominator : Nat) :
    nearest numerator denominator ≤ numerator / denominator + 1 := by
  unfold nearest
  dsimp only
  split <;> omega

theorem div_scale_bounds (quotient : Nat) :
    quotient / 2 ^ (quotient.log2 - 52) < 2 ^ 53 ∧
      (quotient.log2 - 52 = 0 ∨ 2 ^ 52 ≤ quotient / 2 ^ (quotient.log2 - 52)) := by
  constructor
  · rw [Nat.div_lt_iff_lt_mul (Nat.two_pow_pos _), ← Nat.pow_add]
    exact Nat.lt_of_lt_of_le Nat.lt_log2_self (Nat.pow_le_pow_right (by decide) (by omega))
  · by_cases flat : quotient.log2 - 52 = 0
    · exact .inl flat
    · have nonzero : quotient ≠ 0 := by
        rintro rfl
        exact flat rfl
      right
      rw [Nat.le_div_iff_mul_le (Nat.two_pow_pos _), ← Nat.pow_add, Nat.add_sub_cancel' (by omega)]
      exact Nat.log2_self_le nonzero

theorem two_pow_scale_le (quotient : Nat) : 2 ^ (quotient.log2 - 52) ≤ quotient + 1 := by
  by_cases zero : quotient = 0
  · rw [zero]
    decide
  · calc
      2 ^ (quotient.log2 - 52) ≤ 2 ^ quotient.log2 :=
        Nat.pow_le_pow_right (by decide) (Nat.sub_le _ _)
      _ ≤ quotient := Nat.log2_self_le zero
      _ ≤ quotient + 1 := Nat.le_succ _

theorem exists_ofUnits? {numerator denominator power : Nat}
    (small : numerator / denominator < 2 ^ power) (low : power ≤ 2097) :
    ∃ m, ofUnits? numerator denominator = some m ∧ numerator / denominator ≤ 2 * m.units ∧
      m.units ≤ 2 * (numerator / denominator) + 1 := by
  have floor : numerator / (denominator * Nat.pow 2 ((numerator / denominator).log2 - 52)) =
      numerator / denominator / 2 ^ ((numerator / denominator).log2 - 52) :=
    (Nat.div_div_eq_div_mul _ _ _).symm
  have lower := le_nearest numerator
    (denominator * Nat.pow 2 ((numerator / denominator).log2 - 52))
  have upper := nearest_le numerator
    (denominator * Nat.pow 2 ((numerator / denominator).log2 - 52))
  rw [floor] at lower upper
  unfold ofUnits?
  generalize numerator / denominator = quotient at *
  obtain ⟨few, many⟩ := div_scale_bounds quotient
  have step := two_pow_scale_le quotient
  have near : quotient.log2 - 52 ≤ 2044 := by
    by_cases zero : quotient = 0
    · rw [zero]
      decide
    · have := (Nat.log2_lt zero).mpr small
      omega
  dsimp only
  generalize quotient.log2 - 52 = scale at *
  generalize nearest numerator (denominator * Nat.pow 2 scale) = significand at *
  have size : significand * 2 ^ scale ≤ 2 * quotient + 1 := by
    calc
      significand * 2 ^ scale ≤ (quotient / 2 ^ scale + 1) * 2 ^ scale :=
        Nat.mul_le_mul_right _ upper
      _ = quotient / 2 ^ scale * 2 ^ scale + 2 ^ scale := by rw [Nat.succ_mul]
      _ ≤ quotient + (quotient + 1) := Nat.add_le_add (Nat.div_mul_le_self _ _) step
      _ = 2 * quotient + 1 := by omega
  have size' : quotient ≤ 2 * (significand * 2 ^ scale) := by
    have kept : quotient / 2 ^ scale * 2 ^ scale ≤ significand * 2 ^ scale :=
      Nat.mul_le_mul_right _ lower
    have rest := Nat.lt_div_mul_add (Nat.two_pow_pos scale) (a := quotient)
    rcases many with flat | many
    · rw [flat, Nat.pow_zero, Nat.div_one, Nat.mul_one, Nat.mul_one] at kept
      rw [flat, Nat.pow_zero]
      omega
    · have grows : 1 * 2 ^ scale ≤ quotient / 2 ^ scale * 2 ^ scale :=
        Nat.mul_le_mul_right _ (Nat.le_trans (by decide) many)
      omega
  by_cases full : significand = Nat.pow 2 53
  · have moved : Nat.pow 2 52 * Nat.pow 2 (scale + 1) = significand * 2 ^ scale := by
      rw [full]
      change 2 ^ 52 * 2 ^ (scale + 1) = 2 ^ 53 * 2 ^ scale
      rw [← Nat.pow_add, ← Nat.pow_add]
      congr 1
      omega
    rw [if_pos full, ofParts?, dif_pos ⟨by decide, by omega, .inr (Nat.le_refl _)⟩]
    refine ⟨_, rfl, ?_⟩
    change _ ≤ 2 * (Nat.pow 2 52 * Nat.pow 2 (scale + 1)) ∧
      Nat.pow 2 52 * Nat.pow 2 (scale + 1) ≤ _
    rw [moved]
    exact ⟨size', size⟩
  · have less : significand < Nat.pow 2 53 := by
      change significand < 2 ^ 53
      have : significand ≠ 2 ^ 53 := full
      omega
    rw [if_neg full, ofParts?,
      dif_pos ⟨less, by omega, many.imp_right fun many => Nat.le_trans many lower⟩]
    exact ⟨_, rfl, size', size⟩

end Magnitude

namespace Number

open Magnitude

theorem exists_ofUnits_finite {numerator denominator power : Nat}
    (small : numerator / denominator < 2 ^ power) (low : power ≤ 2097) (negative : Bool) :
    ∃ m : Magnitude, ofUnits negative numerator denominator = .finite negative m ∧
      numerator / denominator ≤ 2 * m.units ∧ m.units ≤ 2 * (numerator / denominator) + 1 := by
  obtain ⟨m, near, sizes⟩ := exists_ofUnits? small low
  refine ⟨m, ?_, sizes⟩
  unfold ofUnits
  rw [near]

theorem exists_ofUnits_whole {n : Nat} (small : n ≤ 2 ^ 64) (negative : Bool) :
    ∃ m : Magnitude, ofUnits negative (n * unitsPerOne) 1 = .finite negative m ∧
      ∃ power ≤ 1140, m.units < 2 ^ power := by
  obtain ⟨scale, low, one⟩ := unitsPerOne_isPower
  have units : n * unitsPerOne / 1 < 2 ^ (65 + scale) := by
    rw [Nat.div_one, one, Nat.pow_add]
    exact Nat.mul_lt_mul_of_pos_right (Nat.lt_of_le_of_lt small (by decide)) (Nat.two_pow_pos _)
  obtain ⟨m, finite, -, size⟩ := exists_ofUnits_finite units (by omega) negative
  refine ⟨m, finite, 66 + scale, by omega, ?_⟩
  have next : 2 ^ (66 + scale) = 2 * 2 ^ (65 + scale) := by
    rw [show 66 + scale = 65 + scale + 1 by omega, Nat.pow_succ, Nat.mul_comm]
  omega

end Number

end DesignLink
