import DesignLink.Number.Decimal
import DesignLink.Wire.Fault

/-!
Numbers in documents. Whole numbers of at most 64 bits stay whole. Any other number is the nearest
binary64 number of its leading digits, as many as fit a word of 64 bits, scaled by one power of ten
that is a binary64 number itself.
-/

namespace DesignLink.Wire

/-- A number as a document holds it. -/
inductive Numeral where
  | integer (value : Int)
  | real (value : Number)
  deriving DecidableEq

namespace Numeral

def wordLimit : Nat := Nat.pow 2 64

/-- The greatest value of an exponent; greater ones are not counted on. -/
def exponentLimit : Nat := Nat.pow 2 31 - 1

/-- The product or quotient of a number and a power of ten, each rounded to a number first. -/
def scaleOnce (negative : Bool) (value : Number) (up : Bool) (power : Nat) : Number :=
  match value, Number.ofNat (Nat.pow 10 power) with
  | .finite _ a, .finite _ b =>
    if up then .ofUnits negative (a.units * b.units) Magnitude.unitsPerOne
    else .ofUnits negative (a.units * Magnitude.unitsPerOne) b.units
  | _, _ => .infinite negative

/-- Divides by `10 ^ power` in steps of at most 308 places; `fuel` bounds the steps. -/
def scaleDown : Nat → Bool → Number → Nat → Number
  | 0, negative, _, _ => .zero negative
  | fuel + 1, negative, value, power =>
    if power ≤ 308 then scaleOnce negative value false power
    else
      let next := scaleOnce negative value false 308
      if next = .zero negative then next else scaleDown fuel negative next (power - 308)

/-- The number with these leading digits and this exponent. -/
def assemble (negative : Bool) (significand : Nat) (exponent : Int) : Except Fault Number :=
  let value := match Number.ofNat significand with
    | .finite _ m => Number.finite negative m
    | other => other
  match exponent with
  | .ofNat e =>
    if significand = 0 then .ok value
    else if 308 < e then .error .numberOutOfRange
    else
      match scaleOnce negative value true e with
      | .infinite _ => .error .numberOutOfRange
      | number => .ok number
  | .negSucc e => if significand = 0 then .ok value else .ok (scaleDown 5 negative value (e + 1))

/-- Reads the digits of an exponent up to the end of the text of the number. -/
def readExponent (negative : Bool) (significand : Nat) (exponent : Int) (text : List Char) :
    Except Fault Number :=
  let (up, digits) :=
    match text with
    | '+' :: rest => (true, rest)
    | '-' :: rest => (false, rest)
    | rest => (true, rest)
  let places := Number.ofDigits 10 digits
  if exponentLimit < places then
    if significand ≠ 0 ∧ up then .error .numberOutOfRange else .ok (.zero negative)
  else assemble negative significand (if up then exponent + places else exponent - places)

/-- Adds digits to a significand while it fits a word; also counts the digits taken and gives the
digits left over. -/
def takeDigits : Nat → Nat → List Char → Nat × Nat × List Char
  | significand, count, [] => (significand, count, [])
  | significand, count, c :: rest =>
    if Number.isDigit c then
      let next := significand * 10 + (c.toNat - '0'.toNat)
      if next < wordLimit then takeDigits next (count + 1) rest else (significand, count, c :: rest)
    else (significand, count, c :: rest)

/-- Goes on behind the decimal point or at the exponent mark. -/
def readTail (negative : Bool) (significand : Nat) (exponent : Int) (text : List Char) :
    Except Fault Number :=
  match text with
  | '.' :: fraction =>
    let (significand, count, rest) := takeDigits significand 0 fraction
    let exponent := exponent - count
    match rest.dropWhile Number.isDigit with
    | [] => assemble negative significand exponent
    | _ :: power => readExponent negative significand exponent power
  | [] => assemble negative significand exponent
  | _ :: power => readExponent negative significand exponent power

def ofText (negative : Bool) (text : List Char) : Except Fault Numeral :=
  let (significand, _, rest) := takeDigits 0 0 text
  match rest with
  | [] =>
    if negative then
      if significand = 0 ∨ Nat.pow 2 63 < significand then
        (assemble true significand 0).map .real
      else .ok (.integer (-(significand : Int)))
    else .ok (.integer significand)
  | _ =>
    let extra := (rest.takeWhile Number.isDigit).length
    (readTail negative significand extra (rest.dropWhile Number.isDigit)).map .real

/-- The part of a text that is a numeral (without its sign) and what follows it. -/
def split (text : List Char) : Except Fault (List Char × List Char) :=
  let digits := Number.isDigit
  let whole := text.takeWhile digits
  let rest := text.dropWhile digits
  match whole, rest with
  | [], [] => .error .endInValue
  | [], _ => .error .invalidNumber
  | '0' :: _ :: _, _ => .error .invalidNumber
  | _, _ =>
    let fraction : Except Fault (List Char × List Char) :=
      match rest with
      | '.' :: more =>
        match more.takeWhile digits, more.dropWhile digits with
        | [], [] => .error .endInValue
        | [], _ => .error .invalidNumber
        | places, after => .ok ('.' :: places, after)
      | _ => .ok ([], rest)
    match fraction with
    | .error fault => .error fault
    | .ok (fraction, rest) =>
      let power (mark more : List Char) : Except Fault (List Char × List Char) :=
        match more.takeWhile digits, more.dropWhile digits with
        | [], [] => .error .endInValue
        | [], _ => .error .invalidNumber
        | places, after => .ok (whole ++ fraction ++ mark ++ places, after)
      match rest with
      | e :: more =>
        if e = 'e' ∨ e = 'E' then
          match more with
          | '+' :: more => power ['e', '+'] more
          | '-' :: more => power ['e', '-'] more
          | more => power ['e'] more
        else .ok (whole ++ fraction, rest)
      | [] => .ok (whole ++ fraction, rest)

end Numeral

end DesignLink.Wire
