import DesignLink.Script.Statements

/-!
Modules: the grammar tied together, and the text of a whole module.
-/

namespace DesignLink.Script

namespace Grammar

def step (bound : Nat) (r : Unit → Rules) : Rules where
  bound := bound
  comma c := fun s => commaRule (r ()) c s
  assignment c allowsResult := fun s => assignmentRule (r ()) c allowsResult s
  binary c least := fun s => binaryRule (r ()) c least s
  unary c := fun s => unaryRule (r ()) c s
  operand c := fun s => operandRule (r ()) c s
  statement c place := fun s => statementRule (r ()) c place s
  target c := fun s => targetRule (r ()) c s
  type c := fun s => typeRule (r ()) c s
  markup c isInside := fun s => markupRule (r ()) c isInside s

/-- The grammar for texts that lead at most `depth` rules into each other. -/
def rules : Nat → Rules
  | 0 => .nothing
  | depth + 1 => step (depth + 1) fun _ => rules depth

end Grammar

namespace Module

def statements (r : Rules) : Parser (List Statement) := do
  let first ← Grammar.skipDirectives r .module .outermost
  let rest ← Parser.collectWhile r.bound (do return !((← Parser.token) == .finished))
    (r.statement .module .outermost)
  return first ++ rest

/-- Reads a text as a module; nothing if it is none. -/
def read? (text : List Char) : Option Module :=
  let r := Grammar.rules (8 * text.length + 64)
  match statements r ⟨Lexeme.first text, 0, 0⟩ with
  | some (body, state) => if state.waiting = 0 then some ⟨body⟩ else none
  | none => none

end Module

end DesignLink.Script
