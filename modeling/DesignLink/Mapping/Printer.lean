import DesignLink.Mapping.Basic
import DesignLink.Text.Identifier
import DesignLink.Text.Quoted

/-!
The declared form of mappings: helper calls as their authors write them.
-/

namespace DesignLink

/-- A key as it is written in an object literal. -/
def declaredKey (name : String) : String :=
  if Text.isIdentifier name then name else Text.quoted name

def Literal.print : Literal → String
  | snippet ⟨.templateString, text⟩ => "`" ++ text ++ "`"
  | snippet ⟨_, text⟩ => text
  | boolean value => if value then "true" else "false"
  | number value => value.format
  | string value => Text.quoted value
  | undefined => "undefined"

/-- An object literal on one line. -/
def printObject (entries : List String) : String :=
  if entries.isEmpty then "\x7b\x7d"
  else "\x7b " ++ String.intercalate ", " entries ++ " \x7d"

def printEntry (key value : String) : String := declaredKey key ++ ": " ++ value

def printCall (kind : HelperKind) (arguments : List String) : String :=
  kind.callName ++ "(" ++ String.intercalate ", " arguments ++ ")"

def printArray (items : List String) : String := "[" ++ String.intercalate ", " items ++ "]"

mutual

def Helper.print : Helper → String
  | .boolean property none => printCall .boolean [Text.quoted property]
  | .boolean property (some values) =>
    printCall .boolean [Text.quoted property, printObject (printValues values)]
  | .enum property values =>
    printCall .enum [Text.quoted property, printObject (printValues values)]
  | .string property => printCall .string [Text.quoted property]
  | .swap property => printCall .swap [Text.quoted property]
  | .children [layer] => printCall .children [Text.quoted layer]
  | .children layers => printCall .children [printArray (layers.map Text.quoted)]
  | .nestedProps layer props =>
    printCall .nestedProps [Text.quoted layer, printObject (printProps props)]
  | .className parts => printCall .className [printArray (printParts parts)]
  | .textContent layer => printCall .textContent [Text.quoted layer]

def printValues : List (String × Value) → List String
  | [] => []
  | (key, .helper helper) :: rest => printEntry key helper.print :: printValues rest
  | (key, .literal literal) :: rest => printEntry key literal.print :: printValues rest

def printProps : List (String × Helper) → List String
  | [] => []
  | (key, helper) :: rest => printEntry key helper.print :: printProps rest

def printParts : List ClassPart → List String
  | [] => []
  | .literal text :: rest => Text.quoted text :: printParts rest
  | .helper helper :: rest => helper.print :: printParts rest

end

def ValueMapping.print (values : ValueMapping) : String := printObject (printValues values)

def spaces (count : Nat) : String := String.ofList (List.replicate count ' ')

/-- A prop mapping with one entry a line, its closing brace behind `indent` spaces. -/
def PropMapping.print (indent : Nat) (props : PropMapping) : String :=
  if props.isEmpty then "\x7b\x7d"
  else
    "\x7b\n" ++ String.join ((printProps props).map fun entry =>
      spaces (indent + 2) ++ entry ++ ",\n") ++ spaces indent ++ "\x7d"

end DesignLink
