/-!
Printed texts: escapes and formats.
-/

namespace DesignLink.Shell

def isOctal (c : Char) : Bool := '0' ≤ c && c ≤ '7'

def octalValue (digits : List Char) : Nat :=
  digits.foldl (fun value c => value * 8 + (c.toNat - '0'.toNat)) 0

def octalDigits (count : Nat) (text : List Char) : List Char := (text.take count).takeWhile isOctal

def byteOf (value : Nat) : List UInt8 := [value.toUInt8]

def encoded (c : Char) : List UInt8 := c.toString.toUTF8.toList

def letterEscape? : Char → Option Nat
  | '\\' => some 92
  | 'a' => some 7
  | 'b' => some 8
  | 'f' => some 12
  | 'n' => some 10
  | 'r' => some 13
  | 't' => some 9
  | 'v' => some 11
  | _ => none

/-- The bytes of an escape behind its backslash, and what follows. Unknown escapes stand for
themselves. -/
def escapeBytes (text : List Char) : List UInt8 × List Char :=
  match text with
  | [] => ([92], [])
  | c :: rest =>
    match letterEscape? c with
    | some value => (byteOf value, rest)
    | none =>
      let digits := octalDigits 3 (c :: rest)
      if digits.isEmpty then ([92], c :: rest)
      else (byteOf (octalValue digits), (c :: rest).drop digits.length)

/-- The bytes of a text with its escapes carried out, and whether printing goes on after it; `fuel`
bounds the length of the text. -/
def unescaped : Nat → List Char → List UInt8 × Bool
  | 0, _ => ([], true)
  | _ + 1, [] => ([], true)
  | _ + 1, '\\' :: 'c' :: _ => ([], false)
  | fuel + 1, '\\' :: '0' :: rest =>
    let digits := octalDigits 3 rest
    let (bytes, more) := unescaped fuel (rest.drop digits.length)
    (byteOf (octalValue digits) ++ bytes, more)
  | fuel + 1, '\\' :: rest =>
    let (byte, rest) := escapeBytes rest
    let (bytes, more) := unescaped fuel rest
    (byte ++ bytes, more)
  | fuel + 1, c :: rest =>
    let (bytes, more) := unescaped fuel rest
    (encoded c ++ bytes, more)

def unescapedText (text : String) : List UInt8 × Bool := unescaped (text.length + 1) text.toList

/-- The bytes of words with blanks between them, up to the end of printing; a line break follows
if `line` is set. -/
def echoed (line : Bool) : List String → List UInt8
  | [] => if line then [10] else []
  | [word] =>
    let (bytes, more) := unescapedText word
    if more then bytes ++ (if line then [10] else []) else bytes
  | word :: rest =>
    let (bytes, more) := unescapedText word
    if more then bytes ++ 32 :: echoed line rest else bytes

/-- The flags, width and precision of a conversion. -/
structure Layout where
  left : Bool
  zero : Bool
  plus : Bool
  width : Nat
  precision : Option Nat

namespace Layout

def number (digits : List Char) : Nat := (String.ofList digits).toNat?.getD 0

/-- The layout at the start of a text, and what follows it. -/
def read (text : List Char) : Layout × List Char :=
  let isFlag (c : Char) : Bool := ['-', '0', '+', ' ', '#'].contains c
  let flags := text.takeWhile isFlag
  let text := text.dropWhile isFlag
  let width := text.takeWhile Char.isDigit
  let text := text.dropWhile Char.isDigit
  let bare (precision : Option Nat) : Layout :=
    ⟨flags.contains '-', flags.contains '0', flags.contains '+', number width, precision⟩
  match text with
  | '.' :: rest =>
    (bare (some (number (rest.takeWhile Char.isDigit))), rest.dropWhile Char.isDigit)
  | text => (bare none, text)

/-- Fills up to the width. -/
def pad (layout : Layout) (fill : UInt8) (bytes : List UInt8) : List UInt8 :=
  let missing := layout.width - bytes.length
  if layout.left then bytes ++ List.replicate missing 32
  else List.replicate missing fill ++ bytes

def text (layout : Layout) (bytes : List UInt8) : List UInt8 :=
  layout.pad 32 (match layout.precision with
    | some count => bytes.take count
    | none => bytes)

/-- A number in the given base. -/
def numeral (layout : Layout) (base : Nat) (upper signed : Bool) (value : Int) : List UInt8 :=
  let magnitude := if value < 0 ∧ signed = false then Nat.pow 2 64 - value.natAbs else value.natAbs
  let digits := (Nat.toDigits base magnitude).map fun c => if upper then c.toUpper else c
  let digits := List.replicate (layout.precision.getD 1 - digits.length) '0' ++ digits
  let sign := if signed ∧ value < 0 then "-" else if signed ∧ layout.plus then "+" else ""
  let room := layout.width - sign.length
  let digits :=
    if layout.zero ∧ layout.left = false ∧ layout.precision = none then
      List.replicate (room - digits.length) '0' ++ digits
    else digits
  layout.pad 32 (sign.toUTF8.toList ++ (String.ofList digits).toUTF8.toList)

end Layout

/-- The number that a word stands for: decimal, octal behind a zero, or the code of a quoted
character. -/
def numberOfWord? (word : String) : Option Int :=
  match word.toList with
  | [] => some 0
  | '\'' :: c :: _ => some c.toNat
  | '"' :: c :: _ => some c.toNat
  | '-' :: digits => ((String.ofList digits).toNat?).map fun value => -(value : Int)
  | '+' :: digits => ((String.ofList digits).toNat?).map Int.ofNat
  | '0' :: digits =>
    if digits.all isOctal then some (octalValue digits) else none
  | digits => ((String.ofList digits).toNat?).map Int.ofNat

/-- What printing with a format has left: the bytes, the words not used yet, the words that were no
numbers, and whether printing goes on. -/
structure Printed where
  bytes : List UInt8
  words : List String
  wrong : List String
  more : Bool

namespace Printed

def before (bytes : List UInt8) (p : Printed) : Printed := { p with bytes := bytes ++ p.bytes }

def withWrong (wrong : List String) (p : Printed) : Printed := { p with wrong := wrong ++ p.wrong }

end Printed

def printOnce : Nat → List Char → List String → Printed
  | 0, _, words => ⟨[], words, [], true⟩
  | _ + 1, [], words => ⟨[], words, [], true⟩
  | fuel + 1, '\\' :: rest, words =>
    let (bytes, rest) := escapeBytes rest
    (printOnce fuel rest words).before bytes
  | fuel + 1, '%' :: '%' :: rest, words => (printOnce fuel rest words).before [37]
  | fuel + 1, '%' :: rest, words =>
    let (layout, rest) := Layout.read rest
    let word := words.head?.getD ""
    let numeral (base : Nat) (upper signed : Bool) (rest : List Char) : Printed :=
      let wrong := if (numberOfWord? word).isNone then [word] else []
      ((printOnce fuel rest words.tail).before
        (layout.numeral base upper signed ((numberOfWord? word).getD 0))).withWrong wrong
    match rest with
    | 's' :: rest =>
      (printOnce fuel rest words.tail).before (layout.text word.toUTF8.toList)
    | 'b' :: rest =>
      let (bytes, more) := unescapedText word
      if more then (printOnce fuel rest words.tail).before (layout.text bytes)
      else ⟨layout.text bytes, words.tail, [], false⟩
    | 'c' :: rest =>
      (printOnce fuel rest words.tail).before (layout.text (word.toUTF8.toList.take 1))
    | 'd' :: rest => numeral 10 false true rest
    | 'i' :: rest => numeral 10 false true rest
    | 'u' :: rest => numeral 10 false false rest
    | 'o' :: rest => numeral 8 false false rest
    | 'x' :: rest => numeral 16 false false rest
    | 'X' :: rest => numeral 16 true false rest
    | rest => (printOnce fuel rest words).before [37]
  | fuel + 1, c :: rest, words => (printOnce fuel rest words).before (encoded c)

/-- Prints words with a format, again and again while it uses words and some are left; `fuel`
bounds the number of words. -/
def printAll (format : List Char) : Nat → List String → Printed
  | 0, words => ⟨[], words, [], true⟩
  | fuel + 1, words =>
    let first := printOnce (format.length + 1) format words
    if first.more = false ∨ first.words.isEmpty ∨ first.words.length = words.length then first
    else ((printAll format fuel first.words).before first.bytes).withWrong first.wrong

end DesignLink.Shell
