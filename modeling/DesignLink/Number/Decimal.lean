import DesignLink.Number.Basic

/-!
Decimal texts of numbers: reading rounds the written value once, to the nearest number.
-/

namespace DesignLink.Number

def digitCount (n : Nat) : Nat := (Nat.toDigits 10 n).length

/-- The number nearest to `digits * 10 ^ exponent`. Exponents far outside the range are answered
without computing the power. -/
def ofDecimal (negative : Bool) (digits : Nat) (exponent : Int) : Number :=
  if digits = 0 then zero negative
  else if 310 < exponent then .infinite negative
  else if (digitCount digits : Int) + exponent < -330 then zero negative
  else
    let units := digits * Magnitude.unitsPerOne
    match exponent with
    | .ofNat e => ofUnits negative (units * Nat.pow 10 e) 1
    | .negSucc e => ofUnits negative units (Nat.pow 10 (e + 1))

/-- The value of a digit below `radix`, letters counting from ten. -/
def digitValue? (radix : Nat) (c : Char) : Option Nat :=
  let value :=
    if '0' ≤ c ∧ c ≤ '9' then some (c.toNat - '0'.toNat)
    else if 'a' ≤ c ∧ c ≤ 'z' then some (c.toNat - 'a'.toNat + 10)
    else if 'A' ≤ c ∧ c ≤ 'Z' then some (c.toNat - 'A'.toNat + 10)
    else none
  value.bind fun v => if v < radix then some v else none

/-- The value of a text of digits; other characters are skipped. -/
def ofDigits (radix : Nat) (text : List Char) : Nat :=
  text.foldl (fun value c =>
    match digitValue? radix c with
    | some digit => value * radix + digit
    | none => value) 0

def isDigit (c : Char) : Bool := '0' ≤ c && c ≤ '9'

/-- Reads `digits`, `digits.digits`, `.digits`, each with an optional exponent. -/
def readDecimal? (negative : Bool) (text : List Char) : Option Number :=
  let whole := text.takeWhile isDigit
  let afterWhole := text.dropWhile isDigit
  let (fraction, afterFraction) :=
    match afterWhole with
    | '.' :: rest => (rest.takeWhile isDigit, rest.dropWhile isDigit)
    | rest => ([], rest)
  if whole.isEmpty && fraction.isEmpty then none
  else
    let digits := ofDigits 10 (whole ++ fraction)
    let places : Int := fraction.length
    let withExponent (sign : Int) (exponent : List Char) : Option Number :=
      if exponent.isEmpty || !exponent.all isDigit then none
      else some (ofDecimal negative digits (sign * (ofDigits 10 exponent : Nat) - places))
    match afterFraction with
    | [] => some (ofDecimal negative digits (-places))
    | e :: rest =>
      if e = 'e' ∨ e = 'E' then
        match rest with
        | '+' :: exponent => withExponent 1 exponent
        | '-' :: exponent => withExponent (-1) exponent
        | exponent => withExponent 1 exponent
      else none

/-- Reads a number as it is written in plain text: a decimal, `inf`, `infinity` or `nan` in any
case, with an optional sign. -/
def read? (text : String) : Option Number :=
  let (negative, body) :=
    match text.toList with
    | '-' :: rest => (true, rest)
    | '+' :: rest => (false, rest)
    | rest => (false, rest)
  match String.ofList (body.map Char.toLower) with
  | "inf" | "infinity" => some (.infinite negative)
  | "nan" => some .undefined
  | _ => readDecimal? negative body

end DesignLink.Number
