import DesignLink.Proofs.Number.Rounding
import DesignLink.Number.Layout

/-!
Decimals that read back: the shortest digits of a magnitude denote it, with or without the trailing
zeros that are moved into the exponent.
-/

namespace DesignLink

namespace Number

open Magnitude

theorem ofUnits_mul {factor : Nat} (positive : 0 < factor) (negative : Bool)
    (numerator denominator : Nat) :
    ofUnits negative (numerator * factor) (denominator * factor) =
      ofUnits negative numerator denominator := by
  unfold ofUnits
  rw [ofUnits?_mul positive]

theorem ofUnits_congr {a b c d : Nat} (same : a * d = c * b) (positive : 0 < b)
    (positive' : 0 < d) (negative : Bool) : ofUnits negative a b = ofUnits negative c d := by
  rw [← ofUnits_mul positive', same, Nat.mul_comm b, ofUnits_mul positive]

theorem ofDecimal_of_nonzero {digits : Nat} {exponent : Int} (nonzero : digits ≠ 0)
    (low : exponent ≤ 310) (high : -330 ≤ (digitCount digits : Int) + exponent)
    (negative : Bool) : ofDecimal negative digits exponent =
      ofUnits negative (digits * unitsPerOne * 10 ^ exponent.toNat) (10 ^ (-exponent).toNat) := by
  rw [ofDecimal, if_neg nonzero, if_neg (by omega), if_neg (by omega)]
  cases exponent with
  | ofNat e =>
    have down : (-Int.ofNat e).toNat = 0 := by
      rw [Int.ofNat_eq_natCast]
      omega
    rw [down, Nat.pow_zero]
    rfl
  | negSucc e =>
    have up : (Int.negSucc e).toNat = 0 := rfl
    rw [up, Nat.pow_zero, Nat.mul_one]
    rfl

theorem toDigits_mul_ten {digits : Nat} (nonzero : digits ≠ 0) :
    Nat.toDigits 10 (10 * digits) = Nat.toDigits 10 digits ++ ['0'] := by
  have shift : Nat.toDigits 10 digits ++ Nat.toDigits 10 0 = Nat.toDigits 10 (10 * digits) :=
    Nat.toDigits_append_toDigits (by decide) (Nat.pos_of_ne_zero nonzero) (by decide)
  exact shift.symm

theorem digitCount_mul_ten {digits : Nat} (nonzero : digits ≠ 0) :
    digitCount (10 * digits) = digitCount digits + 1 := by
  rw [digitCount, toDigits_mul_ten nonzero, List.length_append]
  rfl

theorem ofDecimal_ten {digits : Nat} {exponent : Int} (nonzero : digits ≠ 0)
    (low : exponent + 1 ≤ 310) (negative : Bool) :
    ofDecimal negative (10 * digits) exponent = ofDecimal negative digits (exponent + 1) := by
  have nonzero' : 10 * digits ≠ 0 := by omega
  have count := digitCount_mul_ten nonzero
  by_cases high : -330 ≤ (digitCount digits : Int) + (exponent + 1)
  case neg =>
    rw [ofDecimal, if_neg nonzero', if_neg (by omega), if_pos (by rw [count]; omega), ofDecimal,
      if_neg nonzero, if_neg (by omega), if_pos (by omega)]
  case pos =>
    rw [ofDecimal_of_nonzero nonzero' (by omega) (by rw [count]; omega),
      ofDecimal_of_nonzero nonzero low high]
    apply ofUnits_congr _ (Nat.pow_pos (by decide)) (Nat.pow_pos (by decide))
    by_cases below : exponent < 0
    · have up : (-exponent).toNat = (-(exponent + 1)).toNat + 1 := by omega
      have flat : exponent.toNat = 0 := by omega
      have flat' : (exponent + 1).toNat = 0 := by omega
      rw [up, flat, flat', Nat.pow_succ, Nat.pow_zero, Nat.mul_one, Nat.mul_one,
        Nat.mul_assoc 10, Nat.mul_comm 10, Nat.mul_assoc, Nat.mul_comm 10]
    · have up : (exponent + 1).toNat = exponent.toNat + 1 := by omega
      have flat : (-exponent).toNat = 0 := by omega
      have flat' : (-(exponent + 1)).toNat = 0 := by omega
      rw [up, flat, flat', Nat.pow_succ, Nat.pow_zero, Nat.mul_one, Nat.mul_one,
        Nat.mul_assoc 10, Nat.mul_comm 10, Nat.mul_assoc, Nat.mul_comm 10]

theorem exponent_le_of_finite {negative sign : Bool} {digits : Nat} {exponent : Int}
    {m : Magnitude} (nonzero : digits ≠ 0)
    (reads : ofDecimal negative digits exponent = .finite sign m) : exponent ≤ 310 := by
  by_cases great : 310 < exponent
  · rw [ofDecimal, if_neg nonzero, if_pos great] at reads
    cases reads
  · omega

theorem ofUnits_of_great {units power : Nat} (great : 2 ^ power ≤ units) (high : 2098 ≤ power)
    (negative : Bool) : ofUnits negative units 1 = .infinite negative := by
  unfold ofUnits
  rw [ofUnits?_of_great great high]

theorem great_of_nonzero {digits least unit factor : Nat} (nonzero : digits ≠ 0)
    (great : least ≤ 10 * unit * factor) : least ≤ 10 * digits * unit * factor := by
  calc
    least ≤ 10 * unit * factor := great
    _ ≤ digits * (10 * unit * factor) :=
      Nat.le_mul_of_pos_left _ (Nat.pos_of_ne_zero nonzero)
    _ = 10 * digits * unit * factor := by
      rw [Nat.mul_comm 10 digits, Nat.mul_assoc digits, Nat.mul_assoc digits]

theorem power_le : 2 ^ 2098 ≤ 10 * unitsPerOne * 10 ^ 310 := by decide +kernel

theorem exponent_lt_of_finite {negative sign : Bool} {digits : Nat} {exponent : Int}
    {m : Magnitude} (nonzero : digits ≠ 0)
    (reads : ofDecimal negative (10 * digits) exponent = .finite sign m) :
    exponent + 1 ≤ 310 := by
  have nonzero' : 10 * digits ≠ 0 := by omega
  have low := exponent_le_of_finite nonzero' reads
  by_cases last : exponent = 310
  case neg => omega
  case pos =>
    rw [ofDecimal_of_nonzero nonzero' low (by omega)] at reads
    have up : exponent.toNat = 310 := by omega
    have down : (-exponent).toNat = 0 := by omega
    have great := great_of_nonzero nonzero power_le
    rw [up, down, Nat.pow_zero, ofUnits_of_great great (Nat.le_refl 2098)] at reads
    cases reads

theorem ofUnits_units (negative : Bool) (m : Magnitude) :
    ofUnits negative m.units 1 = .finite negative m := by
  unfold ofUnits
  rw [ofUnits?_units]

theorem exists_ofNat {n bits scale : Nat} (value : n = bits * 2 ^ scale) (few : bits < 2 ^ 53)
    (low : scale ≤ 971) :
    ∃ m : Magnitude, ofNat n = .finite false m ∧ m.units = n * unitsPerOne := by
  obtain ⟨ones, small, power⟩ := unitsPerOne_isPower
  obtain ⟨m, units⟩ := exists_units bits (scale + ones) few (by omega)
  have same : m.units = n * unitsPerOne := by
    rw [units, value, Nat.mul_assoc, Nat.pow_add, power]
  refine ⟨m, ?_, same⟩
  rw [← ofUnits_units false m, same, ofNat]

theorem exists_ofNat_ten {places : Nat} (near : places ≤ 22) : ∃ m : Magnitude,
    ofNat (Nat.pow 10 places) = .finite false m ∧ m.units = Nat.pow 10 places * unitsPerOne := by
  have value : Nat.pow 10 places = 5 ^ places * 2 ^ places := by
    rw [← Nat.mul_pow]
    rfl
  have few : 5 ^ places < 2 ^ 53 :=
    Nat.lt_of_le_of_lt (Nat.pow_le_pow_right (by decide) near) (by decide)
  exact exists_ofNat value few (by omega)

end Number

namespace Decimal

open Number

theorem readsAs_iff {m : Magnitude} {d : Decimal} :
    d.readsAs m = true ↔ ofDecimal false d.digits d.exponent = .finite false m := by
  rw [readsAs, beq_iff_eq]

def Denotes (d : Decimal) (m : Magnitude) : Prop := d.digits ≠ 0 ∧ d.readsAs m = true

theorem denotes_of_readsAs {m : Magnitude} {d : Decimal} (positive : m ≠ .zero)
    (reads : d.readsAs m = true) : d.Denotes m := by
  refine ⟨?_, reads⟩
  intro noDigits
  rw [readsAs_iff, noDigits, ofDecimal, if_pos rfl] at reads
  injection reads with _ same
  exact positive same.symm

theorem Denotes.trimAux {m : Magnitude} :
    ∀ (fuel : Nat) {d : Decimal}, d.Denotes m → (trimAux fuel d).Denotes m
  | 0, _, denotes => denotes
  | fuel + 1, d, denotes => by
    unfold Decimal.trimAux
    split
    case isFalse => exact denotes
    case isTrue divisible =>
      obtain ⟨nonzero, noRemainder⟩ := divisible
      have digits : d.digits = 10 * (d.digits / 10) := by omega
      have nonzero' : d.digits / 10 ≠ 0 := by omega
      apply Denotes.trimAux fuel
      refine ⟨nonzero', readsAs_iff.mpr ?_⟩
      have reads := readsAs_iff.mp denotes.2
      rw [digits] at reads
      rw [← ofDecimal_ten nonzero' (exponent_lt_of_finite nonzero' reads)]
      exact reads

theorem Denotes.trim {m : Magnitude} {d : Decimal} (denotes : d.Denotes m) : d.trim.Denotes m :=
  denotes.trimAux _

theorem readsAs_of_onGrid? {tie : Tie} {m : Magnitude} {exponent : Int} {d : Decimal}
    (found : onGrid? tie m exponent = some d) : d.readsAs m = true := by
  unfold onGrid? at found
  dsimp only at found
  split at found
  case h_1 => cases found
  case h_2 lower _ =>
    obtain rfl := Option.some.inj found
    exact lower
  case h_3 _ upper =>
    obtain rfl := Option.some.inj found
    exact upper
  case h_4 lower upper =>
    repeat' split at found
    all_goals
      obtain rfl := Option.some.inj found
      assumption

theorem units_ne_zero {m : Magnitude} (positive : m ≠ .zero) : m.units ≠ 0 := by
  intro noUnits
  have power : Nat.pow 2 m.scale ≠ 0 := Nat.ne_of_gt (Nat.two_pow_pos _)
  have noSignificand : m.significand = 0 := by
    rcases Nat.mul_eq_zero.mp noUnits with zero | zero
    · exact zero
    · exact absurd zero power
  obtain ⟨significand, scale, less, low, normal⟩ := m
  change significand = 0 at noSignificand
  subst noSignificand
  rcases normal with rfl | large
  · exact positive rfl
  · exact absurd large (by decide)

theorem le_digitCount {n k : Nat} (positive : 0 < k) (great : 10 ^ k ≤ n) :
    k < digitCount n := by
  by_cases few : digitCount n ≤ k
  · have small : n < 10 ^ k := (Nat.length_toDigits_le_iff (by decide) positive).mp few
    omega
  · omega

theorem readsAs_of_value {m : Magnitude} {d : Decimal} {places : Nat} (nonzero : d.digits ≠ 0)
    (exponent : d.exponent = -(places : Int)) (high : places ≤ digitCount d.digits + 330)
    (value : d.digits * Magnitude.unitsPerOne = m.units * 10 ^ places) : d.readsAs m = true := by
  rw [readsAs_iff, exponent, ofDecimal_of_nonzero nonzero (by omega) (by omega)]
  have up : (-(places : Int)).toNat = 0 := by omega
  have down : (-(-(places : Int))).toNat = places := by omega
  rw [up, down, Nat.pow_zero, Nat.mul_one, value]
  unfold ofUnits
  rw [Magnitude.ofUnits?_exact m (Nat.pow_pos (by decide))]

theorem fives_great : 10 ^ 743 ≤ Nat.pow 5 1074 := by decide +kernel

theorem fives_mul_unitsPerOne : Nat.pow 5 1074 * Magnitude.unitsPerOne = 10 ^ 1074 := by
  decide +kernel

theorem digits_exact (m : Magnitude) : (exact m).digits = m.units * Nat.pow 5 1074 := rfl

theorem denotes_exact {m : Magnitude} (positive : m ≠ .zero) : (exact m).Denotes m := by
  have units := units_ne_zero positive
  have great : 10 ^ 743 ≤ (exact m).digits := by
    rw [digits_exact]
    exact Nat.le_trans fives_great (Nat.le_mul_of_pos_left _ (Nat.pos_of_ne_zero units))
  have count := le_digitCount (by decide) great
  have nonzero : (exact m).digits ≠ 0 := by
    intro none_
    rw [none_] at count
    exact absurd count (by decide)
  have high : 1074 ≤ digitCount (exact m).digits + 330 := by
    clear great
    omega
  have value : (exact m).digits * Magnitude.unitsPerOne = m.units * 10 ^ 1074 := by
    rw [digits_exact, Nat.mul_assoc, fives_mul_unitsPerOne]
  have exponent : (exact m).exponent = -((1074 : Nat) : Int) := rfl
  exact ⟨nonzero, readsAs_of_value nonzero exponent high value⟩

theorem denotes_shortest (tie : Tie) {m : Magnitude} (positive : m ≠ .zero) :
    (shortest tie m).Denotes m := by
  apply Denotes.trim
  cases found : firstGrid? tie m with
  | none => exact denotes_exact positive
  | some d =>
    obtain ⟨digits, _, onGrid⟩ := List.exists_of_findSome?_eq_some found
    exact denotes_of_readsAs positive (readsAs_of_onGrid? onGrid)

end Decimal

end DesignLink
