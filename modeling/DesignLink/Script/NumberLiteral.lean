import DesignLink.Number.Decimal
import DesignLink.Script.Gap

/-!
Number literals: decimal, hexadecimal, octal and binary, separators between digits, and whole
numbers of any size, which have no binary64 value.
-/

namespace DesignLink.Script.NumberLiteral

/-- A literal's value; whole numbers of any size have none here. -/
inductive Value where
  | number (value : Number)
  | big

/-- Digits that may hold separators between them: what was taken and the rest. The text must not
end in a separator. -/
def digits (isDigit : Char → Bool) : List Char → Option (List Char × List Char)
  | [] => some ([], [])
  | ['_'] => none
  | '_' :: c :: rest =>
    if isDigit c then
      (digits isDigit rest).map fun (taken, rest) => ('_' :: c :: taken, rest)
    else none
  | c :: rest =>
    if isDigit c then (digits isDigit rest).map fun (taken, rest) => (c :: taken, rest)
    else some ([], c :: rest)

/-- At least one digit, the first of them no separator. -/
def someDigits (isDigit : Char → Bool) : List Char → Option (List Char × List Char)
  | [] => none
  | c :: rest =>
    if isDigit c then (digits isDigit rest).map fun (taken, rest) => (c :: taken, rest) else none

def anyDigits (isDigit : Char → Bool) : List Char → Option (List Char × List Char)
  | [] => some ([], [])
  | c :: rest => if isDigit c then someDigits isDigit (c :: rest) else some ([], c :: rest)

def withoutSeparators (text : List Char) : List Char := text.filter (· ≠ '_')

/-- The value of a decimal text with separators. -/
def decimal (text : List Char) : Value :=
  .number ((Number.readDecimal? false (withoutSeparators text)).getD .undefined)

/-- The value of digits in a radix, rounded to the nearest number. -/
def inRadix (radix : Nat) (text : List Char) : Value :=
  .number (Number.ofNat (Number.ofDigits radix (withoutSeparators text)))

/-- An exponent, if one follows: the characters taken and the rest. -/
def exponent (text : List Char) : Option (List Char × List Char) :=
  match text with
  | e :: rest =>
    if e = 'e' ∨ e = 'E' then
      match rest with
      | '+' :: more =>
        (someDigits Number.isDigit more).map fun (taken, rest) => ('e' :: '+' :: taken, rest)
      | '-' :: more =>
        (someDigits Number.isDigit more).map fun (taken, rest) => ('e' :: '-' :: taken, rest)
      | more => (someDigits Number.isDigit more).map fun (taken, rest) => ('e' :: taken, rest)
    else some ([], text)
  | [] => some ([], [])

/-- A literal behind its decimal point. -/
def fraction (whole text : List Char) : Option (Value × List Char × List Char) := do
  let (places, rest) ← anyDigits Number.isDigit text
  let (power, rest) ← exponent rest
  let taken := whole ++ '.' :: places ++ power
  return (decimal taken, taken, rest)

def afterWhole (whole text : List Char) : Option (Value × List Char × List Char) :=
  match text with
  | '.' :: rest => fraction whole rest
  | 'n' :: rest => some (.big, whole ++ ['n'], rest)
  | _ => do
    let (power, rest) ← exponent text
    let taken := whole ++ power
    return (decimal taken, taken, rest)

/-- A literal behind `0x`, `0o` or `0b`. -/
def radixLiteral (radix : Nat) (mark : Char) (text : List Char) :
    Option (Value × List Char × List Char) := do
  let (taken, rest) ← someDigits (fun c => (Number.digitValue? radix c).isSome) text
  match rest with
  | 'n' :: rest => return (.big, '0' :: mark :: taken ++ ['n'], rest)
  | _ => return (inRadix radix taken, '0' :: mark :: taken, rest)

/-- A literal with a zero in front of other digits: octal unless a digit above seven occurs. -/
def leadingZero (text : List Char) : Option (Value × List Char × List Char) :=
  let whole := text.takeWhile Number.isDigit
  let rest := text.dropWhile Number.isDigit
  if whole.all (· ≤ '7') then some (inRadix 8 whole, '0' :: whole, rest)
  else
    match rest with
    | '.' :: rest => fraction ('0' :: whole) rest
    | _ => do
      let (power, rest) ← exponent rest
      let taken := '0' :: whole ++ power
      return (decimal taken, taken, rest)

/-- The literal in front of a text: its value, its characters and the rest. -/
def scan (text : List Char) : Option (Value × List Char × List Char) :=
  match text with
  | '.' :: rest => do
    let (places, rest) ← someDigits Number.isDigit rest
    let (power, rest) ← exponent rest
    let taken := '.' :: places ++ power
    return (decimal taken, taken, rest)
  | '0' :: c :: rest =>
    if c = 'x' ∨ c = 'X' then radixLiteral 16 c rest
    else if c = 'o' ∨ c = 'O' then radixLiteral 8 c rest
    else if c = 'b' ∨ c = 'B' then radixLiteral 2 c rest
    else if Number.isDigit c then leadingZero (c :: rest)
    else afterWhole ['0'] (c :: rest)
  | _ => do
    let (whole, rest) ← someDigits Number.isDigit text
    afterWhole whole rest

/-- A literal must not run into a name or another digit. -/
def read (place : Place) : Option (Value × Place) := do
  let (value, taken, rest) ← scan place.rest
  let next := place.after taken rest
  match rest with
  | c :: _ => if Number.isDigit c ∨ Text.isIdentifierStart c then none else some (value, next)
  | [] => some (value, next)

end DesignLink.Script.NumberLiteral
