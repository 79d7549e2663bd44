import DesignLink.Proofs.Script.Modules

/-!
Arrow functions in their text: the parameters, the arrow, and a value as the body.
-/

namespace DesignLink.Script

open DesignLink.Script.Parser DesignLink.Script.Grammar

def bodyContext : Context := ⟨true, false, false, false, false, false, true⟩

variable {r : Rules} {s s' s'' s''' : State} {e : Expr}

theorem arrowBody_of_value (noBrace : at? "\x7b" s = some (false, s))
    (body : r.assignment bodyContext true s = some (e, s')) :
    arrowBody r .module false true s = some ([e], s') := by
  simp only [arrowBody, bind_apply, noBrace, Option.bind_some, Bool.false_eq_true, if_false]
  change (r.assignment bodyContext true s).bind _ = _
  rw [body]
  rfl

theorem assignmentRule_of_arrow {name : String} {span : Span}
    (noArrow : arrowFunction? r .module true s = some (none, s))
    (parameter : r.binary .module 0 s = some (.identifier span name, s'))
    (atArrow : at? "=>" s' = some (true, s')) (arrow_ : arrow s' = some ((), s''))
    (noBrace : at? "\x7b" s'' = some (false, s''))
    (body : r.assignment bodyContext true s'' = some (e, s''')) :
    assignmentRule r .module true s =
      some (.function ⟨s.lexeme.start, s'''.previous⟩ [e], s''') := by
  have yields : Context.module.yields = false := rfl
  have noYield : at? "yield" s = some (plainText s.lexeme.token == some "yield", s) := rfl
  have body' := arrowBody_of_value noBrace body
  have rest : assignmentRest r .module s.lexeme.start (.identifier span name) true s' =
      some (.function ⟨s.lexeme.start, s'''.previous⟩ [e], s''') := by
    simp only [assignmentRest, bind_apply, atArrow, Option.bind_some, arrow_, body']
    rfl
  simp only [assignmentRule, bind_apply, yields, noYield, noArrow, parameter, rest, Parser.start,
    Bool.false_and, Bool.false_eq_true, if_false, Option.bind_some]

/-! The test for what is there: an arrow function that negates its parameter twice. -/

theorem body_present (depth previous offset waiting : Nat) (rest : List Char) :
    (rules (depth + 9)).assignment bodyContext true
      (.facing previous ⟨offset, "!!v)".toList ++ rest⟩ waiting) =
      some (.prefixed ⟨offset, offset + 3⟩ (.prefixed ⟨offset + 1, offset + 3⟩
        (.identifier ⟨offset + 2, offset + 3⟩ "v")), .behind ⟨offset + 3, ')' :: rest⟩ waiting) :=
  rfl

theorem parameter_present (depth previous offset waiting : Nat) (rest : List Char) :
    (rules (depth + 9)).binary .module 0
      (.facing previous ⟨offset, "v => !!v)".toList ++ rest⟩ waiting) =
      some (.identifier ⟨offset, offset + 1⟩ "v",
        .behind ⟨offset + 1, " => !!v)".toList ++ rest⟩ waiting) := rfl

theorem arguments_present (depth previous offset waiting : Nat) (rest : List Char) :
    ∃ items, arguments (rules (depth + 10)) .module
      (.facing previous ⟨offset, "(v => !!v)".toList ++ rest⟩ waiting) =
      some (items, .behind ⟨offset + 10, rest⟩ waiting) := by
  have value : (rules (depth + 10)).assignment .module true
      (.behind ⟨offset + 1, "v => !!v)".toList ++ rest⟩ waiting) = _ :=
    assignmentRule_of_arrow rfl
      (parameter_present depth (offset + 1) (offset + 1) waiting rest) rfl rfl rfl
      (body_present depth (offset + 5) (offset + 6) waiting rest)
  have noSpread : NotAt ["..."] (.behind ⟨offset + 1, "v => !!v)".toList ++ rest⟩ waiting) :=
    (by decide : ∀ mark ∈ ["..."], plainText (.word "v" false) ≠ some mark)
  have run : ListRun ")" (argument (rules (depth + 10)) .module) _ _ _ :=
    .last rfl (argument_of_value noSpread value) rfl rfl
  have list : listUntil (rules (depth + 10)).bound ")" _ _ = _ :=
    run.listUntil (by rw [bound_rules]; simp)
  exact ⟨_, arguments_of_items (c := .module) list rfl previous⟩

end DesignLink.Script
