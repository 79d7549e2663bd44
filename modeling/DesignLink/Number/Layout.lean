import DesignLink.Number.Shortest

/-!
The written forms of numbers: the one used in code and mapping keys, and the one used in
documents.
-/

namespace DesignLink

namespace Decimal

def zeros (n : Nat) : String := String.ofList (List.replicate n '0')

/-- The digits with the point in its place and no exponent; whole values have no point. -/
def positional (d : Decimal) : String :=
  let digits := toString d.digits
  match d.exponent with
  | .ofNat e => digits ++ zeros e
  | .negSucc e =>
    let places := e + 1
    if places < digits.length then
      let split := digits.length - places
      String.ofList (digits.toList.take split) ++ "." ++ String.ofList (digits.toList.drop split)
    else "0." ++ zeros (places - digits.length) ++ digits

/-- One digit before the point, the others behind it, and a signed exponent. -/
def scientific (d : Decimal) : String :=
  let digits := (toString d.digits).toList
  let lead : Int := d.exponent + digits.length - 1
  let mantissa := String.ofList (digits.take 1) ++
    (if digits.length ≤ 1 then "" else "." ++ String.ofList (digits.drop 1))
  mantissa ++ (if lead < 0 then "e-" else "e+") ++ toString lead.natAbs

end Decimal

namespace Number

def withSign (negative : Bool) (text : String) : String := if negative then "-" ++ text else text

/-- The form used in code and in mapping keys: whole values below `10 ^ 21` exactly, all others
by their shortest digits, never with an exponent. -/
def format : Number → String
  | .undefined => "NaN"
  | .infinite negative => withSign negative "Infinity"
  | .finite negative m =>
    let text :=
      if m.isWhole ∧ m.units < Nat.pow 10 21 * Magnitude.unitsPerOne then
        toString (m.units / Magnitude.unitsPerOne)
      else (Decimal.shortest .upward m).positional
    withSign negative text

/-- The form used in documents: shortest digits that are always recognisable as a fraction, with an
exponent outside `10 ^ -5 … 10 ^ 16`. Values that are not finite have none. -/
def document? : Number → Option String
  | .finite negative m =>
    let d := Decimal.shortest .toEven m
    let lead : Int := d.exponent + digitCount d.digits - 1
    let text :=
      if m.significand = 0 then "0.0"
      else if lead < -5 ∨ 15 < lead then d.scientific
      else if 0 ≤ d.exponent then d.positional ++ ".0"
      else d.positional
    some (withSign negative text)
  | _ => none

end Number

end DesignLink
