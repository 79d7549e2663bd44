import DesignLink.Number.Basic
import DesignLink.Text.Source

/-!
Trees of parsed code. The kinds of expressions that declarations are read from are told apart; all
others keep the expressions inside them, in the order of the text.
-/

namespace DesignLink.Script

mutual

inductive Expr where
  | identifier (span : Span) (name : String)
  | string (span : Span) (value : String)
  | number (span : Span) (value : Number)
  | boolean (span : Span) (value : Bool)
  | template (span : Span) (parts : List Expr)
  | object (span : Span) (members : List Member)
  | array (span : Span) (items : List Item)
  | function (span : Span) (parts : List Expr)
  | markup (span : Span) (parts : List Expr)
  | call (span : Span) (callee : Expr) (types : List Expr) (arguments : List Item)
  | property (span : Span) (object : Expr)
  | element (span : Span) (object : Expr) (index : List Expr)
  | chain (span : Span) (inner : Expr)
  | instantiation (span : Span) (inner : Expr) (types : List Expr)
  | nonNull (span : Span) (inner : Expr)
  | negation (span : Span) (operand : Expr)
  | prefixed (span : Span) (operand : Expr)
  | logical (span : Span) (coalesces : Bool) (left right : Expr)
  | ascription (span : Span) (inner : Expr) (types : List Expr)
  | assignment (span : Span) (plain : Bool) (target value : Expr)
  | group (span : Span) (inner : Expr)
  | other (span : Span) (parts : List Expr)

/-- A member of an object literal. `initialized` is a name with a default value: it is only allowed
where the literal turns out to be a pattern. -/
inductive Member where
  | field (span : Span) (key : Key) (computed : Bool) (value : Expr)
  | spread (span : Span) (value : Expr)
  | initialized (span : Span) (name value : Expr)

inductive Key where
  | name (span : Span) (text : String)
  | expression (value : Expr)

/-- An item of an array literal or an argument of a call. -/
inductive Item where
  | value (value : Expr)
  | spread (span : Span) (value : Expr)
  | hole (span : Span)

end

namespace Expr

def span : Expr → Span
  | identifier span _ | string span _ | number span _ | boolean span _ | template span _
  | object span _ | array span _ | function span _ | markup span _ | call span _ _ _
  | property span _ | element span _ _ | chain span _ | instantiation span _ _ | nonNull span _
  | negation span _ | prefixed span _ | logical span _ _ _ | ascription span _ _
  | assignment span _ _ _ | group span _ | other span _ => span

def isCall : Expr → Bool
  | call _ _ _ _ => true
  | _ => false

end Expr

namespace Key

def span : Key → Span
  | name span _ => span
  | expression e => e.span

/-- The expression of a key that is one. -/
def parts : Key → List Expr
  | name _ _ => []
  | expression e => [e]

end Key

namespace Member

def span : Member → Span
  | field span _ _ _ | spread span _ | initialized span _ _ => span

end Member

namespace Item

def span : Item → Span
  | value e => e.span
  | spread span _ | hole span => span

/-- The expression of an item, if it is nothing else. -/
def value? : Item → Option Expr
  | value e => some e
  | _ => none

end Item

/-- A statement: an expression that stands alone, or anything else with the expressions in it. -/
inductive Statement where
  | expression (span : Span) (value : Expr)
  | other (parts : List Expr)

namespace Statement

def parts : Statement → List Expr
  | expression _ e => [e]
  | other parts => parts

end Statement

/-- A module: its statements without the directives in front. -/
structure Module where
  body : List Statement

end DesignLink.Script
