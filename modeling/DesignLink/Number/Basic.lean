/-!
Binary64 numbers in exact arithmetic. A finite number counts units of `2 ^ -1074`, the least
positive one, so every value is a natural number of units and rounding is a division.
-/

namespace DesignLink

/-- The size of a finite number: `significand * 2 ^ scale` units, in the one form in which the
scale is as small as 53 significant bits allow. -/
structure Magnitude where
  significand : Nat
  scale : Nat
  significand_lt : significand < Nat.pow 2 53
  scale_le : scale ≤ 2045
  normal : scale = 0 ∨ Nat.pow 2 52 ≤ significand
  deriving DecidableEq

/-- A binary64 number; all not-a-number patterns are one value. -/
inductive Number where
  | finite (negative : Bool) (magnitude : Magnitude)
  | infinite (negative : Bool)
  | undefined
  deriving DecidableEq

namespace Magnitude

def unitsPerOne : Nat := Nat.pow 2 1074

def units (m : Magnitude) : Nat := m.significand * Nat.pow 2 m.scale

def zero : Magnitude := ⟨0, 0, by decide, by decide, .inl rfl⟩

/-- The magnitude with these parts, if they are in the form asked for. -/
def ofParts? (significand scale : Nat) : Option Magnitude :=
  if h : significand < Nat.pow 2 53 ∧ scale ≤ 2045 ∧
      (scale = 0 ∨ Nat.pow 2 52 ≤ significand) then
    some ⟨significand, scale, h.1, h.2.1, h.2.2⟩
  else none

/-- The whole number nearest to a quotient; a half goes to the even neighbour. -/
def nearest (numerator denominator : Nat) : Nat :=
  let quotient := numerator / denominator
  let twice := 2 * (numerator % denominator)
  if twice < denominator ∨ (twice = denominator ∧ quotient % 2 = 0) then quotient else quotient + 1

/-- The magnitude nearest to a quotient of units, if it does not exceed the greatest one. -/
def ofUnits? (numerator denominator : Nat) : Option Magnitude :=
  let scale := Nat.log2 (numerator / denominator) - 52
  let significand := nearest numerator (denominator * Nat.pow 2 scale)
  if significand = Nat.pow 2 53 then ofParts? (Nat.pow 2 52) (scale + 1)
  else ofParts? significand scale

/-- Whether the value is a whole number. -/
def isWhole (m : Magnitude) : Bool := m.units % unitsPerOne == 0

end Magnitude

namespace Number

/-- The number of this sign nearest to a quotient of units, infinite when none is near. -/
def ofUnits (negative : Bool) (numerator denominator : Nat) : Number :=
  match Magnitude.ofUnits? numerator denominator with
  | some m => .finite negative m
  | none => .infinite negative

def zero (negative : Bool) : Number := .finite negative .zero

/-- The number nearest to a natural number. -/
def ofNat (n : Nat) : Number := ofUnits false (n * Magnitude.unitsPerOne) 1

/-- The number nearest to an integer. -/
def ofInt : Int → Number
  | .ofNat n => ofNat n
  | .negSucc n => ofUnits true ((n + 1) * Magnitude.unitsPerOne) 1

def negate : Number → Number
  | .finite negative m => .finite (!negative) m
  | .infinite negative => .infinite (!negative)
  | .undefined => .undefined

def isFinite : Number → Bool
  | .finite _ _ => true
  | _ => false

end Number

end DesignLink
