import DesignLink.Number.Decimal
import Mathlib.Algebra.Group.Nat.Defs

/-!
Rounding to numbers: it depends on the value of a quotient only, keeps what is a number already, and
has no number for what is too great.
-/

namespace DesignLink

namespace Magnitude

theorem unitsPerOne_pos : 0 < unitsPerOne := by decide +kernel

theorem nearest_mul {factor : Nat} (positive : 0 < factor) (numerator denominator : Nat) :
    nearest (numerator * factor) (denominator * factor) = nearest numerator denominator := by
  have quotient : numerator * factor / (denominator * factor) = numerator / denominator :=
    Nat.mul_div_mul_right _ _ positive
  have remainder : numerator * factor % (denominator * factor) =
      numerator % denominator * factor := Nat.mul_mod_mul_right _ _ _
  have less : 2 * (numerator % denominator * factor) < denominator * factor ↔
      2 * (numerator % denominator) < denominator := by
    rw [← Nat.mul_assoc]
    exact Nat.mul_lt_mul_right positive
  have same : 2 * (numerator % denominator * factor) = denominator * factor ↔
      2 * (numerator % denominator) = denominator := by
    rw [← Nat.mul_assoc]
    exact Nat.mul_left_inj (Nat.ne_of_gt positive)
  simp only [nearest, quotient, remainder, less, same]

theorem ofUnits?_mul {factor : Nat} (positive : 0 < factor) (numerator denominator : Nat) :
    ofUnits? (numerator * factor) (denominator * factor) = ofUnits? numerator denominator := by
  have quotient : numerator * factor / (denominator * factor) = numerator / denominator :=
    Nat.mul_div_mul_right _ _ positive
  have scaled (power : Nat) : denominator * factor * power = denominator * power * factor := by
    rw [Nat.mul_assoc, Nat.mul_comm factor, ← Nat.mul_assoc]
  simp only [ofUnits?, quotient, scaled, nearest_mul positive]

theorem nearest_mul_self {denominator : Nat} (positive : 0 < denominator) (quotient : Nat) :
    nearest (quotient * denominator) denominator = quotient := by
  have exact_ : quotient * denominator / denominator = quotient :=
    Nat.mul_div_cancel _ positive
  have noRemainder : quotient * denominator % denominator = 0 := Nat.mul_mod_left _ _
  simp only [nearest, exact_, noRemainder, Nat.mul_zero]
  rw [if_pos (.inl positive)]

theorem log2_units (m : Magnitude) : Nat.log2 m.units - 52 = m.scale := by
  have less := m.significand_lt
  change m.significand < 2 ^ 53 at less
  have power : Nat.pow 2 m.scale = 2 ^ m.scale := rfl
  by_cases small : m.significand < 2 ^ 52
  case pos =>
    have flat : m.scale = 0 := by
      rcases m.normal with flat | large
      · exact flat
      · change 2 ^ 52 ≤ m.significand at large
        omega
    rw [units, power, flat, Nat.pow_zero, Nat.mul_one]
    by_cases zero : m.significand = 0
    · rw [zero]
      rfl
    · have bound := (Nat.log2_lt zero).mpr small
      omega
  case neg =>
    have large : 2 ^ 52 ≤ m.significand := by omega
    have positive : 0 < 2 ^ m.scale := Nat.two_pow_pos _
    have nonzero : m.significand * 2 ^ m.scale ≠ 0 := by
      apply Nat.mul_ne_zero <;> omega
    have log : Nat.log2 (m.significand * 2 ^ m.scale) = 52 + m.scale := by
      rw [Nat.log2_eq_iff nonzero]
      constructor
      · rw [Nat.pow_add]
        exact Nat.mul_le_mul_right _ large
      · rw [show 52 + m.scale + 1 = 53 + m.scale by omega, Nat.pow_add]
        exact Nat.mul_lt_mul_of_pos_right less positive
    rw [units, power, log]
    omega

theorem ofUnits?_units (m : Magnitude) : ofUnits? m.units 1 = some m := by
  have significand : nearest m.units (1 * Nat.pow 2 m.scale) = m.significand := by
    rw [Nat.one_mul, units]
    exact nearest_mul_self (Nat.two_pow_pos _) _
  have less : m.significand ≠ Nat.pow 2 53 := Nat.ne_of_lt m.significand_lt
  simp only [ofUnits?, Nat.div_one, log2_units, significand, if_neg less]
  rw [ofParts?, dif_pos ⟨m.significand_lt, m.scale_le, m.normal⟩]

theorem ofUnits?_exact (m : Magnitude) {factor : Nat} (positive : 0 < factor) :
    ofUnits? (m.units * factor) factor = some m := by
  have scaled := ofUnits?_mul positive m.units 1
  rwa [Nat.one_mul, ofUnits?_units] at scaled

theorem ofParts?_of_scale {significand scale : Nat} (great : 2045 < scale) :
    ofParts? significand scale = none := by
  rw [ofParts?, dif_neg]
  rintro ⟨_, small, _⟩
  omega

theorem ofUnits?_of_great {units power : Nat} (great : 2 ^ power ≤ units)
    (high : 2098 ≤ power) : ofUnits? units 1 = none := by
  have nonzero : units ≠ 0 := by
    have positive := Nat.two_pow_pos power
    omega
  have log : power ≤ Nat.log2 units := (Nat.le_log2 nonzero).mpr great
  simp only [ofUnits?, Nat.div_one]
  rw [ofParts?_of_scale (by omega), ofParts?_of_scale (by omega), ite_self]

theorem unitsPerOne_isPower : ∃ scale ≤ 1074, unitsPerOne = 2 ^ scale :=
  ⟨1074, Nat.le_refl _, by decide +kernel⟩

theorem exists_units (bits : Nat) (scale : Nat) (few : bits < 2 ^ 53) (low : scale ≤ 2045) :
    ∃ m : Magnitude, m.units = bits * 2 ^ scale := by
  by_cases zero : bits = 0
  · exact ⟨.zero, by rw [zero, Nat.zero_mul]; rfl⟩
  -- The bits move up until they are significant or the scale is used up.
  have log : bits.log2 < 53 := (Nat.log2_lt zero).mpr few
  have bounds := (Nat.log2_eq_iff zero).mp rfl
  have shifted (up : Nat) (small : up ≤ scale) :
      bits * 2 ^ scale = bits * 2 ^ up * 2 ^ (scale - up) := by
    rw [Nat.mul_assoc, ← Nat.pow_add, Nat.add_sub_cancel' small]
  by_cases far : 52 - bits.log2 ≤ scale
  · have less : bits * 2 ^ (52 - bits.log2) < 2 ^ 53 := by
      calc
        bits * 2 ^ (52 - bits.log2) < 2 ^ (bits.log2 + 1) * 2 ^ (52 - bits.log2) :=
          Nat.mul_lt_mul_of_pos_right bounds.2 (Nat.two_pow_pos _)
        _ = 2 ^ 53 := by rw [← Nat.pow_add]; congr 1; omega
    have large : 2 ^ 52 ≤ bits * 2 ^ (52 - bits.log2) := by
      calc
        2 ^ 52 = 2 ^ bits.log2 * 2 ^ (52 - bits.log2) := by rw [← Nat.pow_add]; congr 1; omega
        _ ≤ bits * 2 ^ (52 - bits.log2) := Nat.mul_le_mul_right _ bounds.1
    exact ⟨⟨_, scale - (52 - bits.log2), less, by omega, .inr large⟩, (shifted _ far).symm⟩
  · have less : bits * 2 ^ scale < 2 ^ 53 := by
      calc
        bits * 2 ^ scale < 2 ^ (bits.log2 + 1) * 2 ^ scale :=
          Nat.mul_lt_mul_of_pos_right bounds.2 (Nat.two_pow_pos _)
        _ = 2 ^ (bits.log2 + 1 + scale) := (Nat.pow_add _ _ _).symm
        _ ≤ 2 ^ 53 := Nat.pow_le_pow_right (by decide) (by omega)
    exact ⟨⟨_, 0, less, by decide, .inl rfl⟩, Nat.mul_one _⟩

end Magnitude

end DesignLink
