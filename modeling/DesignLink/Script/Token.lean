import DesignLink.Script.NumberLiteral
import DesignLink.Script.StringLiteral

/-!
Tokens of TypeScript with embedded markup. What a slash, a closing brace or a bare text means
depends on where it stands, so pieces of templates, regular expressions and markup are scanned on
demand from the place of a token.
-/

namespace DesignLink.Script

inductive Token where
  | word (text : String) (escaped : Bool)
  | privateName
  | number (value : Number)
  | bigNumber
  | string (value : String)
  | template (isLast isPlain : Bool)
  | mark (text : String)
  | finished
  | fault
  deriving DecidableEq

/-- A token in its place: `here` is the text from its first character on. -/
structure Lexeme where
  token : Token
  newline : Bool
  start : Nat
  here : List Char
  stop : Nat
  rest : List Char

namespace Token

/-- The marks that are always tokens of their own; a longer one comes before its beginnings. A
closing angle is one token for itself: only an operator takes what follows it. -/
def marks : List String := [
  "...", "===", "!==", "**=", "<<=", "&&=", "||=", "??=",
  "=>", "==", "!=", "<=", "<<", "++", "--", "**", "+=", "-=", "*=", "/=", "%=", "&=", "|=", "^=",
  "&&", "||", "??", "?.",
  "\x7b", "\x7d", "(", ")", "[", "]", ";", ",", "<", ">", "+", "-", "*", "/", "%", "&", "|", "^",
  "!", "~", "?", ":", "=", "@", "."]

/-- The operators that start with a closing angle, the longest first. -/
def angleMarks : List String := [">>>=", ">>>", ">>=", ">>", ">="]

/-- The first of some marks that a text starts with. -/
def markOf (marks : List String) (text : List Char) : Option String :=
  marks.find? fun mark => mark.toList.isPrefixOf text

/-- The mark in front of a text. A question mark and a point before a digit are two tokens. -/
def scanMark (text : List Char) : Option String :=
  match text with
  | '?' :: '.' :: c :: _ => if Number.isDigit c then some "?" else some "?."
  | _ => markOf marks text

/-- The characters of a word, whether some are escaped, and the place behind it; `fuel` bounds the
length of the text. -/
def scanWord : Nat → Bool → Place → Option (List Char × Bool × Place)
  | 0, _, _ => none
  | fuel + 1, first, place =>
    let isPart (c : Char) : Bool :=
      if first then Text.isIdentifierStart c else Text.isIdentifierPart c
    match place.rest with
    | '\\' :: 'u' :: rest =>
      match Escape.unicode rest with
      | some (.char c, taken, rest) =>
        if isPart c then
          (scanWord fuel false ⟨place.offset + 2 + Text.byteSize taken, rest⟩).map
            fun (later, _, place) => (c :: later, true, place)
        else none
      | _ => none
    | '\\' :: _ => none
    | c :: rest =>
      if isPart c then
        (scanWord fuel false ⟨place.offset + c.utf8Size, rest⟩).map
          fun (later, escaped, place) => (c :: later, escaped, place)
      else if first then none
      else some ([], false, place)
    | [] => if first then none else some ([], false, place)

/-- A piece of a template behind its opening mark: whether it is the last one, whether all its
escapes are plain, and the place behind it. -/
def scanTemplate : Nat → Place → Option (Bool × Bool × Place)
  | 0, _ => none
  | fuel + 1, ⟨offset, text⟩ =>
    match text with
    | [] => none
    | '\x60' :: rest => some (true, true, ⟨offset + 1, rest⟩)
    | '$' :: '\x7b' :: rest => some (false, true, ⟨offset + 2, rest⟩)
    | '\\' :: c :: rest =>
      (scanTemplate fuel ⟨offset + 1 + c.utf8Size, rest⟩).map
        fun (isLast, isPlain, place) => (isLast, isPlain && Escape.isPlain (c :: rest), place)
    | c :: rest => scanTemplate fuel ⟨offset + c.utf8Size, rest⟩

/-- The body of a regular expression behind its opening slash, up to and with the closing one. A
slash inside brackets or behind a backslash does not end the body. -/
def scanPattern : Bool → Nat → List Char → Option Place
  | _, _, [] => none
  | inClass, offset, '\\' :: c :: rest =>
    if Text.isLineTerminator c then none
    else scanPattern inClass (offset + 1 + c.utf8Size) rest
  | inClass, offset, c :: rest =>
    if Text.isLineTerminator c then none
    else if c = '/' ∧ !inClass then some ⟨offset + 1, rest⟩
    else scanPattern (if c = '[' then true else if c = ']' then false else inClass)
      (offset + c.utf8Size) rest

/-- The flags that a regular expression may have, each at most once. -/
def flags : List Char := "dgimsuvy".toList

/-- The place behind the flags of a regular expression. -/
def scanFlags (place : Place) : Option Place :=
  let isFlagPart (c : Char) : Bool := c.isAlphanum || c = '$' || c = '_'
  let found := place.rest.takeWhile isFlagPart
  if found.all flags.contains ∧ flags.all (found.count · ≤ 1) then
    some (place.after found (place.rest.drop found.length))
  else none

/-- The token in front of a text, and the place behind it. -/
def scan (place : Place) : Token × Place :=
  match place.rest with
  | [] => (.finished, place)
  | '"' :: rest =>
    match StringLiteral.read '"' ⟨place.offset + 1, rest⟩ with
    | some (value, next) => (.string value, next)
    | none => (.fault, place)
  | '\'' :: rest =>
    match StringLiteral.read '\'' ⟨place.offset + 1, rest⟩ with
    | some (value, next) => (.string value, next)
    | none => (.fault, place)
  | '\x60' :: rest =>
    match scanTemplate (rest.length + 1) ⟨place.offset + 1, rest⟩ with
    | some (isLast, isPlain, next) => (.template isLast isPlain, next)
    | none => (.fault, place)
  | '#' :: rest =>
    match scanWord (rest.length + 1) true ⟨place.offset + 1, rest⟩ with
    | some (_, _, next) => (.privateName, next)
    | none => (.fault, place)
  | c :: rest =>
    let isNumber :=
      Number.isDigit c || (c = '.' && (rest.head?.map Number.isDigit).getD false)
    if isNumber then
      match NumberLiteral.read place with
      | some (.number value, next) => (.number value, next)
      | some (.big, next) => (.bigNumber, next)
      | none => (.fault, place)
    else
      match scanMark (c :: rest) with
      | some text => (.mark text, ⟨place.offset + text.utf8ByteSize, place.rest.drop text.length⟩)
      | none =>
        match scanWord (rest.length + 2) true place with
        | some (text, escaped, next) => (.word (String.ofList text) escaped, next)
        | none => (.fault, place)

end Token

namespace Lexeme

def next (place : Place) : Lexeme :=
  match Gap.skip .blank false place.offset place.rest with
  | none => ⟨.fault, false, place.offset, place.rest, place.offset, []⟩
  | some (newline, place) =>
    let (token, after) := Token.scan place
    ⟨token, newline, place.offset, place.rest, after.offset, after.rest⟩

/-- The first token of a text; a line that starts with `#!` is a comment there. -/
def first (text : List Char) : Lexeme :=
  let text' := text.dropWhile fun c => c.toNat = 0xFEFF
  match text' with
  | '#' :: '!' :: _ =>
    match Gap.skip .line false 0 text with
    | none => next ⟨0, text⟩
    | some (_, place) => { next place with newline := true }
  | _ => next ⟨0, text⟩

def after (l : Lexeme) : Place := ⟨l.stop, l.rest⟩

def place (l : Lexeme) : Place := ⟨l.start, l.here⟩

end Lexeme

end DesignLink.Script
