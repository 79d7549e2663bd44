import DesignLink.Proofs.Number.Range
import DesignLink.Proofs.Wire.Exact
import Mathlib.Algebra.Group.Int.Defs

/-!
What numbers a document can hold: whole numbers of 64 bits and finite numbers. Whole numbers are read
back from their digits, and no other number is mistaken for one.
-/

namespace DesignLink

open Number Magnitude

theorem Number.isFinite_ofInt {value : Int} (least : -2 ^ 63 ≤ value) (less : value < 2 ^ 64) :
    (Number.ofInt value).isFinite = true := by
  cases value with
  | ofNat n =>
    have small : n ≤ 2 ^ 64 := Int.ofNat_le.mp (Int.le_of_lt less)
    obtain ⟨m, finite, -⟩ := exists_ofUnits_whole small false
    rw [Number.ofInt, Number.ofNat, finite]
    rfl
  | negSucc n =>
    have small : n + 1 ≤ 2 ^ 64 := by omega
    obtain ⟨m, finite, -⟩ := exists_ofUnits_whole small true
    rw [Number.ofInt, finite]
    rfl

theorem Number.ofUnits_cases (negative : Bool) (numerator denominator : Nat) :
    (ofUnits negative numerator denominator).isFinite = true ∨
      ∃ sign, ofUnits negative numerator denominator = .infinite sign := by
  unfold ofUnits
  split
  · exact .inl rfl
  · exact .inr ⟨negative, rfl⟩

namespace Wire

def Numeral.IsInRange : Numeral → Prop
  | .integer value => -2 ^ 63 ≤ value ∧ value < 2 ^ 64
  | .real value => value.isFinite = true

namespace Numeral

/-- A finite number that is one or more. -/
def isGreat : Number → Bool
  | .finite false b => unitsPerOne ≤ b.units
  | _ => false

theorem exists_of_isGreat {value : Number} (great : isGreat value = true) :
    ∃ b, value = .finite false b ∧ unitsPerOne ≤ b.units := by
  unfold isGreat at great
  split at great
  case h_1 b => exact ⟨b, rfl, of_decide_eq_true great⟩
  case h_2 => cases great

/-- The powers of ten that a number is divided by are numbers, and none is less than one. -/
theorem exists_ofNat_power {power : Nat} (near : power ≤ 308) : ∃ b : Magnitude,
    Number.ofNat (Nat.pow 10 power) = .finite false b ∧ unitsPerOne ≤ b.units := by
  -- The greatest power is so near the greatest numbers that it is rounded apart.
  by_cases inner : 0 < power ∧ power < 308
  · obtain ⟨scale, low, one⟩ := unitsPerOne_isPower
    obtain ⟨bits, few, all⟩ : ∃ bits ≤ 1020,
        ((List.range 308).all fun power => Nat.pow 10 power < Nat.pow 2 bits) = true :=
      ⟨1020, Nat.le_refl _, by decide +kernel⟩
    have less : Nat.pow 10 power < 2 ^ bits :=
      of_decide_eq_true (List.all_eq_true.mp all power (List.mem_range.mpr inner.2))
    have small : Nat.pow 10 power * unitsPerOne / 1 < 2 ^ (bits + scale) := by
      rw [Nat.div_one, one, Nat.pow_add]
      exact Nat.mul_lt_mul_of_pos_right less (Nat.two_pow_pos _)
    obtain ⟨b, isPower, great, -⟩ := exists_ofUnits_finite small (by omega) false
    have many : 2 * unitsPerOne ≤ Nat.pow 10 power * unitsPerOne := by
      apply Nat.mul_le_mul_right
      calc
        2 ≤ 10 ^ 1 := by decide
        _ ≤ 10 ^ power := Nat.pow_le_pow_right (by decide) inner.1
    rw [Nat.div_one] at great
    exact ⟨b, isPower, by omega⟩
  · have ends : power ∈ [0, 308] := by simp; omega
    have all : ([0, 308].all fun power => isGreat (Number.ofNat (Nat.pow 10 power))) = true := by
      decide +kernel
    exact exists_of_isGreat (List.all_eq_true.mp all power ends)

theorem exists_scaleOnce_down {a : Magnitude} {power bound : Nat} (near : power ≤ 308)
    (small : a.units < 2 ^ bound) (low : bound ≤ 2097) (negative sign : Bool) :
    ∃ m : Magnitude, scaleOnce negative (.finite sign a) false power = .finite negative m ∧
      m.units ≤ 2 * a.units + 1 := by
  obtain ⟨b, isPower, great⟩ := exists_ofNat_power near
  have less : a.units * unitsPerOne / b.units ≤ a.units := by
    apply Nat.div_le_of_le_mul
    rw [Nat.mul_comm]
    exact Nat.mul_le_mul_right _ great
  obtain ⟨m, finite, -, size⟩ :=
    exists_ofUnits_finite (Nat.lt_of_le_of_lt less small) low negative
  rw [scaleOnce_down rfl isPower]
  exact ⟨m, finite, by omega⟩

theorem isFinite_scaleDown (negative : Bool) : ∀ (fuel power bound : Nat) (sign : Bool)
    {a : Magnitude}, a.units < 2 ^ bound → bound + 2 * fuel ≤ 2097 →
      (scaleDown fuel negative (.finite sign a) power).isFinite = true
  | 0, _, _, _, _, _, _ => rfl
  | fuel + 1, power, bound, sign, a, small, low => by
    rw [scaleDown]
    split
    case isTrue near =>
      obtain ⟨m, finite, -⟩ := exists_scaleOnce_down near small (by omega) negative sign
      rw [finite]
      rfl
    case isFalse =>
      obtain ⟨m, finite, size⟩ :=
        exists_scaleOnce_down (Nat.le_refl 308) small (by omega) negative sign
      have next : m.units < 2 ^ (bound + 2) := by
        rw [Nat.pow_add]
        omega
      dsimp only
      rw [finite]
      split
      · rfl
      · exact isFinite_scaleDown negative fuel (power - 308) (bound + 2) negative next (by omega)

theorem scaleOnce_cases (negative : Bool) (value : Number) (up : Bool) (power : Nat) :
    (scaleOnce negative value up power).isFinite = true ∨
      ∃ sign, scaleOnce negative value up power = .infinite sign := by
  unfold scaleOnce
  generalize Number.ofNat (Nat.pow 10 power) = factor
  cases value with
  | finite _ a =>
    cases factor with
    | finite _ b =>
      dsimp only
      split
      · exact ofUnits_cases negative _ _
      · exact ofUnits_cases negative _ _
    | infinite | undefined => exact .inr ⟨negative, rfl⟩
  | infinite | undefined => exact .inr ⟨negative, rfl⟩

theorem isFinite_assemble {negative : Bool} {digits : Nat} {exponent : Int} {value : Number}
    (few : digits ≤ 2 ^ 64) (ok : assemble negative digits exponent = .ok value) :
    value.isFinite = true := by
  obtain ⟨m, finite, bound, low, small⟩ := exists_ofUnits_whole few false
  have ofNat_digits : Number.ofNat digits = .finite false m := by
    rw [Number.ofNat]
    exact finite
  cases shape : exponent with
  | negSucc e =>
    rw [assemble_down ofNat_digits shape] at ok
    split at ok
    case isTrue => cases ok; rfl
    case isFalse =>
      cases ok
      exact isFinite_scaleDown negative 5 (e + 1) bound negative small (by omega)
  | ofNat e =>
    unfold assemble at ok
    rw [ofNat_digits, shape] at ok
    simp only at ok
    split at ok
    case isTrue => cases ok; rfl
    case isFalse =>
      split at ok
      case isTrue => cases ok
      case isFalse =>
        split at ok
        case h_1 => cases ok
        case h_2 notInfinite =>
          cases ok
          refine (scaleOnce_cases _ _ _ _).resolve_right ?_
          rintro ⟨sign, infinite⟩
          exact notInfinite sign infinite

theorem takeDigits_lt : ∀ (text : List Char) (significand count : Nat), significand < wordLimit →
    (takeDigits significand count text).1 < wordLimit
  | [], _, _, fits => fits
  | c :: rest, significand, count, fits => by
    rw [takeDigits]
    split
    case isTrue =>
      dsimp only
      split
      case isTrue next => exact takeDigits_lt rest _ _ next
      case isFalse => exact fits
    case isFalse => exact fits

theorem isFinite_readExponent {negative : Bool} {significand : Nat} {exponent : Int}
    {text : List Char} {value : Number} (few : significand < wordLimit)
    (ok : readExponent negative significand exponent text = .ok value) :
    value.isFinite = true := by
  unfold readExponent at ok
  split at ok
  simp only at ok
  split at ok
  case isTrue =>
    split at ok
    case isTrue => cases ok
    case isFalse => cases ok; rfl
  case isFalse => exact isFinite_assemble (Nat.le_of_lt few) ok

theorem isFinite_readTail {negative : Bool} {significand : Nat} {exponent : Int} {text : List Char}
    {value : Number} (few : significand < wordLimit)
    (ok : readTail negative significand exponent text = .ok value) : value.isFinite = true := by
  unfold readTail at ok
  split at ok
  case h_1 fraction =>
    have few' := takeDigits_lt fraction significand 0 few
    generalize takeDigits significand 0 fraction = taken at ok few'
    simp only at ok
    split at ok
    case h_1 => exact isFinite_assemble (Nat.le_of_lt few') ok
    case h_2 => exact isFinite_readExponent few' ok
  case h_2 => exact isFinite_assemble (Nat.le_of_lt few) ok
  case h_3 => exact isFinite_readExponent few ok

theorem isInRange_of_ofText {negative : Bool} {text : List Char} {numeral : Numeral}
    (ok : ofText negative text = .ok numeral) : numeral.IsInRange := by
  unfold ofText at ok
  have few := takeDigits_lt text 0 0 (by decide)
  generalize takeDigits 0 0 text = taken at ok few
  obtain ⟨significand, count, rest⟩ := taken
  dsimp only at ok few
  split at ok
  case h_1 =>
    split at ok
    case isTrue =>
      split at ok
      case isTrue =>
        obtain ⟨value, read, same⟩ := exists_of_map ok
        cases same
        exact isFinite_assemble (Nat.le_of_lt few) read
      case isFalse small =>
        cases ok
        have : significand ≤ 2 ^ 63 := Nat.le_of_not_lt fun great => small (.inr great)
        constructor <;> omega
    case isFalse =>
      cases ok
      have : significand < 2 ^ 64 := few
      constructor <;> omega
  case h_2 =>
    obtain ⟨value, read, same⟩ := exists_of_map ok
    cases same
    exact isFinite_readTail few read

theorem ofText_digits {value : Int} (least : -2 ^ 63 ≤ value) (less : value < 2 ^ 64) :
    ofText (value < 0) (Nat.toDigits 10 value.natAbs) = .ok (.integer value) := by
  have all := allDigits_toDigits value.natAbs
  have digits : Nat.ofDigitChars 10 (Nat.toDigits 10 value.natAbs) 0 = value.natAbs :=
    Nat.ofDigitChars_ten_toDigits
  have fits : Nat.ofDigitChars 10 (Nat.toDigits 10 value.natAbs) 0 < wordLimit := by
    rw [digits]
    change value.natAbs < 2 ^ 64
    omega
  have taken := takeDigits_digits (Nat.toDigits 10 value.natAbs) 0 0 [] all fits (by simp)
  rw [List.append_nil, digits] at taken
  unfold ofText
  rw [taken]
  dsimp only
  by_cases negative : value < 0
  · have nonzero : ¬(value.natAbs = 0 ∨ Nat.pow 2 63 < value.natAbs) := by
      change ¬(value.natAbs = 0 ∨ 2 ^ 63 < value.natAbs)
      omega
    rw [if_pos (decide_eq_true negative), if_neg nonzero]
    congr 2
    omega
  · rw [if_neg (by simpa using negative)]
    congr 2
    omega

theorem isDigit_of_takeDigits (text : List Char) (significand count : Nat)
    (all : (takeDigits significand count text).2.2 = []) : ∀ c ∈ text, isDigit c = true := by
  induction text generalizing significand count with
  | nil => exact nofun
  | cons c rest ih =>
    rw [takeDigits] at all
    split at all
    case isTrue digit =>
      dsimp only at all
      split at all
      case isTrue => exact List.forall_mem_cons.mpr ⟨digit, ih _ _ all⟩
      case isFalse => cases all
    case isFalse => cases all

theorem exists_mark (m : Magnitude) : ∃ c ∈ (magnitudeText m).toList, isDigit c = false := by
  unfold magnitudeText
  generalize Decimal.shortest .toEven m = d
  dsimp only
  split
  case isTrue => exact ⟨'.', by decide, rfl⟩
  case isFalse =>
    split
    case isTrue =>
      refine ⟨'e', ?_, rfl⟩
      have mark (lead : Int) : 'e' ∈ (if lead < 0 then "e-" else "e+").toList := by
        split <;> decide
      unfold Decimal.scientific
      simp only [String.toList_append, List.mem_append, mark, or_true, true_or]
    case isFalse =>
      split
      case isTrue => exact ⟨'.', by simp, rfl⟩
      case isFalse down =>
        obtain ⟨digits, exponent⟩ := d
        cases exponent with
        | ofNat e => exact absurd (Int.natCast_nonneg e) down
        | negSucc e =>
          refine ⟨'.', ?_, rfl⟩
          unfold Decimal.positional
          dsimp only
          split <;> simp

theorem ofText_magnitudeText_ne (negative : Bool) (m : Magnitude) (value : Int) :
    ofText negative (magnitudeText m).toList ≠ .ok (.integer value) := by
  intro ok
  obtain ⟨c, member, noDigit⟩ := exists_mark m
  have all := isDigit_of_takeDigits (magnitudeText m).toList 0 0
  unfold ofText at ok
  generalize takeDigits 0 0 (magnitudeText m).toList = taken at ok all
  obtain ⟨significand, count, rest⟩ := taken
  dsimp only at ok
  split at ok
  case h_1 =>
    rw [all rfl c member] at noDigit
    cases noDigit
  case h_2 =>
    obtain ⟨value, read, same⟩ := exists_of_map ok
    cases same

end Numeral

end Wire

end DesignLink
