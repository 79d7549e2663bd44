import DesignLink.Number.Decimal
import DesignLink.Script.Gap

/-!
String literals: their escapes, and the text that they stand for.
-/

namespace DesignLink.Script

/-- A unit of the value of a string: a character, or half of a pair that stands alone. -/
inductive StringUnit where
  | char (c : Char)
  | half (value : Nat)
  deriving DecidableEq

namespace StringUnit

/-- The replacement character, which also marks a lone half. -/
def replacement : Char := Char.ofNat 0xFFFD

def hexDigits (value : Nat) : List Char :=
  [value / 4096 % 16, value / 256 % 16, value / 16 % 16, value % 16].map Nat.digitChar

/-- The text of units among which a half stands alone: halves and replacement characters are
written as a replacement character and four digits. -/
def marked : List StringUnit → List Char
  | [] => []
  | .half value :: rest => replacement :: hexDigits value ++ marked rest
  | .char c :: rest =>
    if c = replacement then replacement :: hexDigits 0xFFFD ++ marked rest else c :: marked rest

def plain : List StringUnit → List Char
  | [] => []
  | .half _ :: rest => plain rest
  | .char c :: rest => c :: plain rest

def isHalf : StringUnit → Bool
  | .half _ => true
  | .char _ => false

def text (units : List StringUnit) : List Char :=
  if units.any isHalf then marked units else plain units

end StringUnit

namespace Escape

def isHex (c : Char) : Bool := (Number.digitValue? 16 c).isSome

def isOctal (c : Char) : Bool := '0' ≤ c && c ≤ '7'

/-- The code point of `\u{…}` behind its opening brace, and the characters it takes. -/
def braced (text : List Char) : Option (Nat × List Char × List Char) :=
  let digits := text.takeWhile isHex
  match text.dropWhile isHex with
  | '\x7d' :: rest =>
    let value := Number.ofDigits 16 digits
    if digits.isEmpty ∨ 0x10FFFF < value then none else some (value, digits ++ ['\x7d'], rest)
  | _ => none

/-- The value of exactly `count` hexadecimal digits in front. -/
def fixed (count : Nat) (text : List Char) : Option (Nat × List Char × List Char) :=
  let digits := text.take count
  if digits.length = count ∧ digits.all isHex then
    some (Number.ofDigits 16 digits, digits, text.drop count)
  else none

/-- The unit of a code point. -/
def unit (value : Nat) : StringUnit :=
  if 0xD800 ≤ value ∧ value ≤ 0xDFFF then .half value else .char (Char.ofNat value)

/-- What `\u` stands for, with the characters taken behind the `u`. -/
def unicode (text : List Char) : Option (StringUnit × List Char × List Char) :=
  match text with
  | '\x7b' :: rest =>
    (braced rest).map fun (value, taken, rest) => (unit value, '\x7b' :: taken, rest)
  | _ =>
    match fixed 4 text with
    | none => none
    | some (high, taken, rest) =>
      if 0xD800 ≤ high ∧ high ≤ 0xDBFF then
        match rest with
        | '\\' :: 'u' :: more =>
          match fixed 4 more with
          | some (low, takenLow, rest') =>
            if 0xDC00 ≤ low ∧ low ≤ 0xDFFF then
              let value := 0x10000 + (high - 0xD800) * 0x400 + (low - 0xDC00)
              some (.char (Char.ofNat value), taken ++ '\\' :: 'u' :: takenLow, rest')
            else some (.half high, taken, rest)
          | none => some (.half high, taken, rest)
        | _ => some (.half high, taken, rest)
      else some (unit high, taken, rest)

/-- The octal digits of an escape that starts with one: three up to `3`, else two. -/
def octal (first : Char) (text : List Char) : List Char × List Char :=
  let most := if first ≤ '3' then 2 else 1
  let more := (text.take most).takeWhile isOctal
  (first :: more, text.drop more.length)

/-- The character of a one-letter escape; other characters stand for themselves. -/
def letter (c : Char) : Char :=
  match c with
  | 'b' => Char.ofNat 8
  | 'f' => Char.ofNat 12
  | 'n' => '\n'
  | 'r' => '\r'
  | 't' => '\t'
  | 'v' => Char.ofNat 11
  | c => c

/-- What an escape stands for, behind its backslash: the units, the characters taken, the rest. -/
def read : List Char → Option (List StringUnit × List Char × List Char)
  | [] => none
  | '\r' :: '\n' :: rest => some ([], ['\r', '\n'], rest)
  | 'u' :: rest =>
    (unicode rest).map fun (unit, taken, rest) => ([unit], 'u' :: taken, rest)
  | 'x' :: rest =>
    (fixed 2 rest).map fun (value, taken, rest) => ([unit value], 'x' :: taken, rest)
  | c :: rest =>
    if Text.isLineTerminator c then some ([], [c], rest)
    else if isOctal c then
      let (digits, rest) := octal c rest
      some ([unit (Number.ofDigits 8 digits)], digits, rest)
    else some ([.char (letter c)], [c], rest)

/-- Whether an escape may stand in a template, behind its backslash. -/
def isPlain (text : List Char) : Bool :=
  match text with
  | '0' :: c :: _ => !Number.isDigit c
  | ['0'] => true
  | c :: _ => if Number.isDigit c then false else (read text).isSome
  | [] => false

end Escape

namespace StringLiteral

/-- Reads a string behind its opening quote up to and with the closing one; `fuel` bounds the
length of the text. -/
def units (quote : Char) : Nat → Place → Option (List StringUnit × Place)
  | 0, _ => none
  | fuel + 1, ⟨offset, text⟩ =>
    match text with
    | [] => none
    | '\\' :: rest =>
      match Escape.read rest with
      | none => none
      | some (escaped, taken, rest) =>
        (units quote fuel ⟨offset + 1 + Text.byteSize taken, rest⟩).map
          fun (later, place) => (escaped ++ later, place)
    | c :: rest =>
      let next : Place := ⟨offset + c.utf8Size, rest⟩
      if c = quote then some ([], next)
      else if c = '\n' ∨ c = '\r' then none
      else (units quote fuel next).map fun (later, place) => (.char c :: later, place)

/-- The value of a string behind its opening quote, and the place behind its closing one. -/
def read (quote : Char) (place : Place) : Option (String × Place) :=
  (units quote (place.rest.length + 1) place).map
    fun (units, place) => (String.ofList (StringUnit.text units), place)

end StringLiteral

end DesignLink.Script
