import DesignLink.Number.Layout

/-!
Document values and their written form. Objects keep the order of their members; numbers are
either whole numbers, kept exactly, or binary64 numbers.
-/

namespace DesignLink

inductive Json where
  | null
  | boolean (value : Bool)
  | integer (value : Int)
  | real (value : Number)
  | string (value : String)
  | list (items : List Json)
  | object (members : List (String × Json))

namespace Json

def hexDigit (n : Nat) : Char := (Nat.digitChar n)

/-- How one character is written inside a string. -/
def escapeChar (c : Char) : List Char :=
  if c = '"' then ['\\', '"']
  else if c = '\\' then ['\\', '\\']
  else if c = '\n' then ['\\', 'n']
  else if c = '\r' then ['\\', 'r']
  else if c = '\t' then ['\\', 't']
  else if c.toNat = 8 then ['\\', 'b']
  else if c.toNat = 12 then ['\\', 'f']
  else if c.toNat < 32 then
    ['\\', 'u', '0', '0', hexDigit (c.toNat / 16), hexDigit (c.toNat % 16)]
  else [c]

def quote (text : String) : String :=
  "\"" ++ String.ofList (text.toList.flatMap escapeChar) ++ "\""

/-- Numbers that are not finite are written as `null`. -/
def realText (value : Number) : String := value.document?.getD "null"

mutual

/-- The written form without any space. -/
def compact : Json → String
  | null => "null"
  | boolean value => if value then "true" else "false"
  | integer value => toString value
  | real value => realText value
  | string value => quote value
  | list items => "[" ++ compactItems items ++ "]"
  | object members => "\x7b" ++ compactMembers members ++ "\x7d"

def compactItems : List Json → String
  | [] => ""
  | [item] => item.compact
  | item :: rest => item.compact ++ "," ++ compactItems rest

def compactMembers : List (String × Json) → String
  | [] => ""
  | [(key, value)] => quote key ++ ":" ++ value.compact
  | (key, value) :: rest => quote key ++ ":" ++ value.compact ++ "," ++ compactMembers rest

end

def lineBreak (level : Nat) : String :=
  "\n" ++ String.ofList (List.replicate (2 * level) ' ')

mutual

/-- The written form with one item or member a line, indented by two spaces a level. -/
def pretty (level : Nat) : Json → String
  | null => "null"
  | boolean value => if value then "true" else "false"
  | integer value => toString value
  | real value => realText value
  | string value => quote value
  | list [] => "[]"
  | list (item :: rest) =>
    "[" ++ lineBreak (level + 1) ++ item.pretty (level + 1) ++ prettyItems (level + 1) rest ++
      lineBreak level ++ "]"
  | object [] => "\x7b\x7d"
  | object ((key, value) :: rest) =>
    "\x7b" ++ lineBreak (level + 1) ++ quote key ++ ": " ++ value.pretty (level + 1) ++
      prettyMembers (level + 1) rest ++ lineBreak level ++ "\x7d"

def prettyItems (level : Nat) : List Json → String
  | [] => ""
  | item :: rest => "," ++ lineBreak level ++ item.pretty level ++ prettyItems level rest

def prettyMembers (level : Nat) : List (String × Json) → String
  | [] => ""
  | (key, value) :: rest =>
    "," ++ lineBreak level ++ quote key ++ ": " ++ value.pretty level ++ prettyMembers level rest

end

/-- The member of an object under a key. -/
def get? (json : Json) (key : String) : Option Json :=
  match json with
  | object members => (members.find? fun member => member.1 = key).map (·.2)
  | _ => none

def text? : Json → Option String
  | string value => some value
  | _ => none

def items? : Json → Option (List Json)
  | list items => some items
  | _ => none

/-- The member for a value that may be absent. -/
def given {α : Type} (key : String) (toJson : α → Json) : Option α → List (String × Json)
  | none => []
  | some value => [(key, toJson value)]

/-- Whether the value is `null`. -/
def isNull : Json → Bool
  | null => true
  | _ => false

end Json

end DesignLink
