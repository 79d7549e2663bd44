import DesignLink.Script.Parser

/-!
The rules of the grammar that lead back to themselves. Every other rule is a plain definition over
these, so the grammar as a whole is one step from the rules for shorter texts to the rules for
longer ones.
-/

namespace DesignLink.Script

/-- Where a statement stands: alone behind a condition or loop, among others, or outermost, where
modules are bound together. -/
inductive StatementPlace where
  | alone
  | among
  | outermost
  deriving DecidableEq

structure Rules where
  /-- A bound for the number of parts in a row. -/
  bound : Nat
  /-- Expressions with commas between them. -/
  comma : Context → Parser Expr
  /-- An expression without commas; the flag says whether an arrow function may have a return
  type even if no colon follows it. -/
  assignment : Context → Bool → Parser Expr
  /-- Operands and operators that bind more tightly than a level. -/
  binary : Context → Nat → Parser Expr
  /-- An operand with the operators before it. -/
  unary : Context → Parser Expr
  /-- An operand with the members, calls and types behind it. -/
  operand : Context → Parser Expr
  /-- A statement. -/
  statement : Context → StatementPlace → Parser Statement
  /-- A name or pattern that is given a value. -/
  target : Context → Parser (List Expr)
  /-- A type, with the expressions in it. -/
  type : Context → Parser (List Expr)
  /-- An element of markup; the flag says whether it stands inside another one. -/
  markup : Context → Bool → Parser Expr

namespace Rules

/-- An expression without commas and without the doubt about return types. -/
def value (r : Rules) (c : Context) : Parser Expr := r.assignment c true

def nothing : Rules where
  bound := 0
  comma _ := Parser.fail
  assignment _ _ := Parser.fail
  binary _ _ := Parser.fail
  unary _ := Parser.fail
  operand _ := Parser.fail
  statement _ _ := Parser.fail
  target _ := Parser.fail
  type _ := Parser.fail
  markup _ _ := Parser.fail

end Rules

end DesignLink.Script
