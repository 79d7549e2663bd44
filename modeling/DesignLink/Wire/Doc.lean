import DesignLink.Text.Bytes
import DesignLink.Wire.Json
import DesignLink.Wire.Numeral

/-!
Scanned documents. A scan never fails as a whole: a fault stands in the place where a reader of the
document meets it, so a reader that stops earlier, or does not look at that part, never sees it.
-/

namespace DesignLink.Wire

/-- A scanned value. The ending of a list or object is the fault that stands where the next item or
the closing bracket should be. -/
inductive Doc where
  | null
  | boolean (value : Bool)
  | numeral (value : Except Fault Numeral)
  | string (value : Except Fault String)
  | list (items : List Doc) (ending : Option Fault)
  | object (members : List (Except Fault String × Doc)) (ending : Option Fault)
  | broken (fault : Fault)

namespace Doc

/-- The fault that stands at the end of a value, or in it if it has no parts. -/
def fault? : Doc → Option Fault
  | numeral (.error fault) => some fault
  | string (.error fault) => some fault
  | list _ ending => ending
  | object _ ending => ending
  | broken fault => some fault
  | _ => none

/-- What follows a scanned part: the rest of the text, or the fault that ended the scan. -/
abbrev Rest := Except Fault (List Char)

def skipSpace : List Char → List Char
  | [] => []
  | c :: rest =>
    if c = ' ' ∨ c = '\n' ∨ c = '\t' ∨ c = '\r' then skipSpace rest else c :: rest

/-- The rest of a text behind an expected word. -/
def word : List Char → List Char → Rest
  | [], text => .ok text
  | _ :: _, [] => .error .endInValue
  | c :: expected, d :: text => if c = d then word expected text else .error .wordExpected

def hexValue? (text : List Char) : Option Nat :=
  text.foldl (fun value c =>
    match value, Number.digitValue? 16 c with
    | some value, some digit => some (value * 16 + digit)
    | _, _ => none) (some 0)

/-- The four digits of a `\u` escape. -/
def hexEscape (text : List Char) : Except Fault (Nat × List Char) :=
  let digits := text.take 4
  if digits.length < 4 then .error .endInString
  else
    match hexValue? digits with
    | some value => .ok (value, text.drop 4)
    | none => .error .invalidEscape

/-- A scanned string: its characters up to the first fault, and what follows. Lone surrogates are
faults of the value alone. -/
structure Scanned where
  value : Except Fault (List Char)
  rest : Rest

namespace Scanned

def fail (fault : Fault) : Scanned := ⟨.error fault, .error fault⟩

def push (c : Char) (s : Scanned) : Scanned := { s with value := s.value.map (c :: ·) }

def spoil (fault : Fault) (s : Scanned) : Scanned := { s with value := .error fault }

end Scanned

/-- The character that a one-letter escape stands for. -/
def escaped? : Char → Option Char
  | '"' => some '"'
  | '\\' => some '\\'
  | '/' => some '/'
  | 'b' => some (Char.ofNat 8)
  | 'f' => some (Char.ofNat 12)
  | 'n' => some '\n'
  | 'r' => some '\r'
  | 't' => some '\t'
  | _ => none

/-- Scans the characters of a string behind its opening quote; `fuel` bounds the length of the
text, `atEnd` is the fault of a text that ends inside. -/
def scanString (atEnd : Fault) : Nat → List Char → Scanned
  | 0, _ => .fail atEnd
  | _ + 1, [] => .fail atEnd
  | _ + 1, '"' :: rest => ⟨.ok [], .ok rest⟩
  | _ + 1, ['\\'] => .fail atEnd
  | fuel + 1, '\\' :: 'u' :: rest =>
    match hexEscape rest with
    | .error fault => .fail fault
    | .ok (unit, rest) =>
      if 0xDC00 ≤ unit ∧ unit ≤ 0xDFFF then (scanString atEnd fuel rest).spoil .loneSurrogate
      else if 0xD800 ≤ unit ∧ unit ≤ 0xDBFF then
        match rest with
        | '\\' :: 'u' :: after =>
          match hexEscape after with
          | .error fault => .fail fault
          | .ok (low, after) =>
            if 0xDC00 ≤ low ∧ low ≤ 0xDFFF then
              let value := 0x10000 + (unit - 0xD800) * 0x400 + (low - 0xDC00)
              (scanString atEnd fuel after).push (Char.ofNat value)
            else (scanString atEnd fuel after).spoil .loneSurrogate
        | _ => (scanString atEnd fuel rest).spoil .endInHexEscape
      else (scanString atEnd fuel rest).push (Char.ofNat unit)
  | fuel + 1, '\\' :: c :: rest =>
    match escaped? c with
    | some d => (scanString atEnd fuel rest).push d
    | none => .fail .invalidEscape
  | fuel + 1, c :: rest =>
    if c.toNat < 32 then .fail .controlCharacter else (scanString atEnd fuel rest).push c

/-- Scans a string behind its opening quote. -/
def string? (atEnd : Fault) (text : List Char) : Except Fault String × Rest :=
  let scanned := scanString atEnd (text.length + 1) text
  (scanned.value.map String.ofList, scanned.rest)

def scanNumeral (negative : Bool) (text : List Char) : Doc × Rest :=
  match Numeral.split text with
  | .error fault => (.numeral (.error fault), .error fault)
  | .ok (digits, rest) => (.numeral (Numeral.ofText negative digits), .ok rest)

/-- A word and the value it stands for. -/
def scanWord (value : Doc) (expected text : List Char) : Doc × Rest :=
  match word expected text with
  | .ok rest => (value, .ok rest)
  | .error fault => (.broken fault, .error fault)

mutual

/-- Scans one value; `fuel` bounds the nesting and the number of items. -/
def scan (atEnd : Fault) : Nat → List Char → Doc × Rest
  | 0, _ => (.broken .endInValue, .error .endInValue)
  | fuel + 1, text =>
    match skipSpace text with
    | [] => (.broken .endInValue, .error .endInValue)
    | 'n' :: rest => scanWord .null ['u', 'l', 'l'] rest
    | 't' :: rest => scanWord (.boolean true) ['r', 'u', 'e'] rest
    | 'f' :: rest => scanWord (.boolean false) ['a', 'l', 's', 'e'] rest
    | '-' :: rest => scanNumeral true rest
    | '"' :: rest =>
      let (value, rest) := string? atEnd rest
      (.string value, rest)
    | '[' :: rest =>
      let (items, ending) := scanItems atEnd fuel true rest
      match ending with
      | .ok rest => (.list items none, .ok rest)
      | .error fault => (.list items (some fault), .error fault)
    | '\x7b' :: rest =>
      let (members, ending) := scanMembers atEnd fuel true rest
      match ending with
      | .ok rest => (.object members none, .ok rest)
      | .error fault => (.object members (some fault), .error fault)
    | c :: rest =>
      if Number.isDigit c then scanNumeral false (c :: rest)
      else (.broken .valueExpected, .error .valueExpected)

/-- Scans the items of a list; `first` says whether none was scanned before. -/
def scanItems (atEnd : Fault) : Nat → Bool → List Char → List Doc × Rest
  | 0, _, _ => ([], .error .endInList)
  | fuel + 1, first, text =>
    let item (rest : List Char) : List Doc × Rest :=
      match scan atEnd fuel rest with
      | (value, .error fault) => ([value], .error fault)
      | (value, .ok rest) =>
        let (items, ending) := scanItems atEnd fuel false rest
        (value :: items, ending)
    match skipSpace text with
    | [] => ([], .error .endInList)
    | ']' :: rest => ([], .ok rest)
    | c :: rest =>
      if first then item (c :: rest)
      else if c = ',' then
        match skipSpace rest with
        | [] => ([], .error .endInValue)
        | ']' :: _ => ([], .error .trailingComma)
        | d :: rest => item (d :: rest)
      else ([], .error .listCommaOrEndExpected)

/-- Scans the members of an object; `first` says whether none was scanned before. -/
def scanMembers (atEnd : Fault) :
    Nat → Bool → List Char → List (Except Fault String × Doc) × Rest
  | 0, _, _ => ([], .error .endInObject)
  | fuel + 1, first, text =>
    let member (rest : List Char) : List (Except Fault String × Doc) × Rest :=
      match string? atEnd rest with
      | (key, .error fault) => ([(key, .broken fault)], .error fault)
      | (key, .ok rest) =>
        match skipSpace rest with
        | ':' :: rest =>
          match scan atEnd fuel rest with
          | (value, .error fault) => ([(key, value)], .error fault)
          | (value, .ok rest) =>
            let (members, ending) := scanMembers atEnd fuel false rest
            ((key, value) :: members, ending)
        | [] => ([(key, .broken .endInObject)], .error .endInObject)
        | _ => ([(key, .broken .colonExpected)], .error .colonExpected)
    match skipSpace text with
    | [] => ([], .error .endInObject)
    | '\x7d' :: rest => ([], .ok rest)
    | c :: rest =>
      if first then
        if c = '"' then member rest else ([], .error .keyNotString)
      else if c = ',' then
        match skipSpace rest with
        | [] => ([], .error .endInValue)
        | '"' :: rest => member rest
        | '\x7d' :: _ => ([], .error .trailingComma)
        | _ => ([], .error .keyNotString)
      else ([], .error .objectCommaOrEndExpected)

end

/-- Scans the first value of a text. -/
def ofText (text : List Char) (atEnd : Fault) : Doc × Rest :=
  scan atEnd (2 * text.length + 2) text

/-! Bytes that are no text. Inside a string they spoil its value, but not the scan. The text is
scanned with two different characters in their place: a string holds such bytes if the scans differ
in it. -/

def agreedText : Except Fault String → Except Fault String → Except Fault String
  | .ok text, .ok other => if text = other then .ok text else .error .invalidCodePoint
  | text, _ => text

mutual

def agreed : Doc → Doc → Doc
  | string text, string other => string (agreedText text other)
  | list items ending, list others _ => list (agreedItems items others) ending
  | object members ending, object others _ => object (agreedMembers members others) ending
  | doc, _ => doc

def agreedItems : List Doc → List Doc → List Doc
  | item :: rest, other :: others => agreed item other :: agreedItems rest others
  | items, _ => items

def agreedMembers :
    List (Except Fault String × Doc) → List (Except Fault String × Doc) →
      List (Except Fault String × Doc)
  | (key, value) :: rest, (other, found) :: others =>
    (agreedText key other, agreed value found) :: agreedMembers rest others
  | members, _ => members

end

/-- Scans the first value of some bytes. -/
def ofBytes (bytes : ByteArray) : Doc :=
  let scanned (gap : Char) := (ofText (Text.filled gap bytes).toList .endInString).1
  match String.fromUTF8? bytes with
  | some text => (ofText text.toList .endInString).1
  | none => agreed (scanned Text.replacement) (scanned (Char.ofNat 0xE000))

end Doc

end DesignLink.Wire
