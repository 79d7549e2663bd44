import DesignLink.Number.Decimal

/-!
The shortest decimal that reads back as a given number. Grids of 1, 2, … 17 digits are tried in
turn; on each the two neighbours of the value are the only candidates.
-/

namespace DesignLink

/-- The decimal `digits * 10 ^ exponent`. -/
structure Decimal where
  digits : Nat
  exponent : Int
  deriving DecidableEq

/-- Which of two equally near decimals is taken. -/
inductive Tie where
  | toEven
  | upward
  deriving DecidableEq

namespace Decimal

/-- Moves trailing zeros of the digits into the exponent; `fuel` bounds their number. -/
def trimAux : Nat → Decimal → Decimal
  | 0, d => d
  | fuel + 1, d =>
    if d.digits ≠ 0 ∧ d.digits % 10 = 0 then trimAux fuel ⟨d.digits / 10, d.exponent + 1⟩ else d

def trim (d : Decimal) : Decimal := trimAux (Number.digitCount d.digits) d

/-- Whether the decimal reads back as `m`. -/
def readsAs (m : Magnitude) (d : Decimal) : Bool :=
  Number.ofDecimal false d.digits d.exponent == .finite false m

/-- The exponent `k` with `10 ^ (k - 1) ≤ m < 10 ^ k`. -/
def leadExponent (m : Magnitude) : Int :=
  (Number.digitCount (m.units * Nat.pow 10 340 / Magnitude.unitsPerOne) : Int) - 340

/-- The two decimals of exponent `exponent` around `m`, with the remainder of the lower one. -/
def neighbours (m : Magnitude) (exponent : Int) : Nat × Nat × Nat :=
  let (numerator, denominator) :=
    match exponent with
    | .ofNat e => (m.units, Magnitude.unitsPerOne * Nat.pow 10 e)
    | .negSucc e => (m.units * Nat.pow 10 (e + 1), Magnitude.unitsPerOne)
  (numerator / denominator, numerator % denominator, denominator)

/-- The nearer of the two decimals of exponent `exponent` around `m` that read back as `m`. -/
def onGrid? (tie : Tie) (m : Magnitude) (exponent : Int) : Option Decimal :=
  let (digits, remainder, denominator) := neighbours m exponent
  let lower : Decimal := ⟨digits, exponent⟩
  let upper : Decimal := ⟨digits + 1, exponent⟩
  match lower.readsAs m, upper.readsAs m with
  | false, false => none
  | true, false => some lower
  | false, true => some upper
  | true, true =>
    if 2 * remainder < denominator then some lower
    else if denominator < 2 * remainder then some upper
    else
      match tie with
      | .upward => some upper
      | .toEven => if digits % 2 = 0 then some lower else some upper

/-- The exact value of `m`. -/
def exact (m : Magnitude) : Decimal := ⟨m.units * Nat.pow 5 1074, -1074⟩

def firstGrid? (tie : Tie) (m : Magnitude) : Option Decimal :=
  (List.range 17).findSome? fun (digits : Nat) => onGrid? tie m (leadExponent m - (digits + 1))

/-- The shortest decimal that reads back as `m`, the nearest of those. -/
def shortest (tie : Tie) (m : Magnitude) : Decimal :=
  ((firstGrid? tie m).getD (exact m)).trim

end Decimal

end DesignLink
