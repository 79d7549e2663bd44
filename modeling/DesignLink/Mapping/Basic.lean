import DesignLink.Number.Layout

/-!
Mappings of design properties to code: trees of helper calls, in the order in which they were
written.
-/

namespace DesignLink

/-- How a captured piece of code is rebuilt. -/
inductive SnippetKind where
  | function
  | identifier
  | object
  | templateString
  | jsxElement
  deriving DecidableEq, Repr

/-- A piece of code kept as it was written. -/
structure Snippet where
  kind : SnippetKind
  text : String
  deriving DecidableEq

/-- A code value. -/
inductive Literal where
  | snippet (snippet : Snippet)
  | boolean (value : Bool)
  | number (value : Number)
  | string (value : String)
  | undefined
  deriving DecidableEq

inductive HelperKind where
  | boolean
  | enum
  | string
  | swap
  | children
  | nestedProps
  | className
  | textContent
  deriving DecidableEq, Repr

mutual

/-- A helper call: one look-up in the design. -/
inductive Helper where
  | boolean (property : String) (values : Option (List (String × Value)))
  | enum (property : String) (values : List (String × Value))
  | string (property : String)
  | swap (property : String)
  | children (layers : List String)
  | nestedProps (layer : String) (props : List (String × Helper))
  | className (parts : List ClassPart)
  | textContent (layer : String)

/-- What a design value is mapped to. -/
inductive Value where
  | helper (helper : Helper)
  | literal (literal : Literal)

inductive ClassPart where
  | literal (text : String)
  | helper (helper : Helper)

end

deriving instance BEq for Helper

/-- Design values with what they stand for in code, keys pairwise different. -/
abbrev ValueMapping := List (String × Value)

/-- Code properties with the helper that looks each one up, keys pairwise different. -/
abbrev PropMapping := List (String × Helper)

namespace HelperKind

/-- The name of the kind in documents, which is also the accessor of its look-ups. -/
def tag : HelperKind → String
  | boolean => "boolean"
  | enum => "enum"
  | string => "string"
  | swap => "instance"
  | children => "children"
  | nestedProps => "nested-props"
  | className => "className"
  | textContent => "text-content"

def callName : HelperKind → String
  | boolean => "figma.boolean"
  | enum => "figma.enum"
  | string => "figma.string"
  | swap => "figma.instance"
  | children => "figma.children"
  | nestedProps => "figma.nestedProps"
  | className => "figma.className"
  | textContent => "figma.textContent"

def all : List HelperKind :=
  [boolean, enum, string, swap, children, nestedProps, className, textContent]

/-- The first kind whose call name the text of a call starts with. -/
def ofCall? (text : String) : Option HelperKind :=
  all.find? fun kind => kind.callName.toList.isPrefixOf text.toList

end HelperKind

def Helper.kind : Helper → HelperKind
  | boolean _ _ => .boolean
  | enum _ _ => .enum
  | string _ => .string
  | swap _ => .swap
  | children _ => .children
  | nestedProps _ _ => .nestedProps
  | className _ => .className
  | textContent _ => .textContent

end DesignLink
