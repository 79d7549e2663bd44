import DesignLink.Proofs.Script.Patterns

/-!
Modules in their text: a run over the statements is what a module reads, and an expression up to the
end of a statement is a statement.
-/

namespace DesignLink.Script

open DesignLink.Script.Parser DesignLink.Script.Grammar

def StatementRun (r : Rules) : State → List Statement → State → Prop :=
  CollectRun (do return !((← Parser.token) == .finished)) (r.statement .module .outermost)

variable {r : Rules} {c : Context} {s s' : State} {e : Expr}

theorem StatementRun.done (finished : s.lexeme.token = .finished) : StatementRun r s [] s :=
  CollectRun.done (by simp [bind_apply, token, finished, pure_apply])

theorem StatementRun.more {s'' : State} {statement : Statement} {statements : List Statement}
    (unfinished : s.lexeme.token ≠ .finished)
    (read : r.statement .module .outermost s = some (statement, s'))
    (rest : StatementRun r s' statements s'') :
    StatementRun r s (statement :: statements) s'' := by
  have goesOn : (s.lexeme.token == .finished) = false := by simpa using unfinished
  exact CollectRun.next (by simp [bind_apply, token, goesOn, pure_apply]) read rest

def NoDirective (token : Token) : Prop := ∀ value, token ≠ .string value

theorem skipDirectives_of_noDirective (positive : 0 < r.bound) (place : StatementPlace)
    (noDirective : NoDirective s.lexeme.token) :
    skipDirectives r c place s = some ([], s) := by
  apply iterate_done positive
  rw [token_bind]
  refine congrFun (?_ : _ = (pure (.inr []) : Parser (Unit ⊕ List Statement))) s
  split
  case h_1 value found => exact absurd found (noDirective value)
  case h_2 => rfl

theorem read?_of_run {text : List Char} {statements : List Statement}
    (first : Lexeme.first text = .next ⟨0, text⟩)
    (noDirective : NoDirective (Lexeme.next ⟨0, text⟩).token)
    (run : StatementRun (rules (8 * text.length + 64)) (.facing 0 ⟨0, text⟩ 0) statements s)
    (settled : s.waiting = 0) (few : statements.length < 8 * text.length + 64) :
    Module.read? text = some ⟨statements⟩ := by
  have directives : skipDirectives (rules (8 * text.length + 64)) .module .outermost
      (.facing 0 ⟨0, text⟩ 0) = some ([], .facing 0 ⟨0, text⟩ 0) :=
    skipDirectives_of_noDirective (by rw [bound_rules]; omega) _ noDirective
  have all := CollectRun.collectWhile run few
  have statements_ : Module.statements (rules (8 * text.length + 64)) ⟨Lexeme.first text, 0, 0⟩ =
      some (statements, s) := by
    rw [first]
    change Module.statements (rules (8 * text.length + 64)) (.facing 0 ⟨0, text⟩ 0) = _
    simp only [Module.statements, bind_apply, directives, Option.bind_some, bound_rules]
    rw [all]
    rfl
  rw [Module.read?]
  simp only [statements_, settled, if_true]

/-! Expressions as statements. -/

theorem comma_of_value {depth : Nat} (plain : c.decorates = false)
    (read : (rules (depth + 1)).assignment c true s = some (e, s')) (stops : Stops s')
    (noComma : s'.lexeme.token ≠ .mark ",") :
    (rules (depth + 2)).comma c s = some (e, s') := by
  have context : { c with decorates := false } = c := by
    cases c
    cases plain
    rfl
  have last : at? "," s' = some (false, s') := by
    have other : plainText s'.lexeme.token ≠ some "," := by
      intro same
      rw [Stops] at stops
      have each : ∀ token ∈ stopTokens, plainText token = some "," → token = .mark "," := by
        decide
      exact noComma (each _ stops same)
    simpa [at?] using other
  have more : collectWhile (rules (depth + 1)).bound (at? ",")
      (do advance; (rules (depth + 1)).value c) s' = some ([], s') := by
    apply iterate_done (Nat.succ_pos depth)
    simp [bind_apply, last, pure_apply]
  change commaRule (rules (depth + 1)) c s = _
  simp only [commaRule, bind_apply, context, Rules.value, Parser.start, Option.bind_some] at more ⊢
  simp only [read, more, Option.bind_some, List.isEmpty_nil, if_true, pure_apply]

theorem expressionStatement_of_comma (inside : c.withIn = c) (read : r.comma c s = some (e, s'))
    (ends : endStatement s' = some ((), s')) :
    expressionStatement r c s = some (.expression ⟨s.lexeme.start, s'.previous⟩ e, s') := by
  simp only [expressionStatement, bind_apply, Parser.start, inside, read, ends, Option.bind_some]
  rfl

/-! The only expression of a module. -/

theorem statementRule_of_parenthesis (previous offset waiting : Nat) (text : List Char) :
    statementRule r .module .outermost (.facing previous ⟨offset, '(' :: text⟩ waiting) =
      expressionStatement r .module (.facing previous ⟨offset, '(' :: text⟩ waiting) := rfl

theorem operand_of_comma {depth stop : Nat} {text : List Char}
    (read : (rules (depth + 2)).comma .module (.behind ⟨1, text⟩ 0) = some (e, s))
    (closing : expect ")" s = some ((), .behind ⟨stop, []⟩ 0)) :
    operandRule (rules (depth + 2)) .module (.facing 0 ⟨0, '(' :: text⟩ 0) =
      some (.group ⟨0, stop⟩ e, .behind ⟨stop, []⟩ 0) := by
  have opening : expect "(" (.facing 0 ⟨0, '(' :: text⟩ 0) =
      some ((), .behind ⟨1, text⟩ 0) := rfl
  have context : Context.module.withIn = .module := rfl
  have group : primary (rules (depth + 2)) .module (depth + 2) (.facing 0 ⟨0, '(' :: text⟩ 0) =
      some (.group ⟨0, stop⟩ e, .behind ⟨stop, []⟩ 0) := by
    have same : primary (rules (depth + 2)) .module (depth + 2) (.facing 0 ⟨0, '(' :: text⟩ 0) =
        groupExpression (rules (depth + 2)) .module (.facing 0 ⟨0, '(' :: text⟩ 0) := rfl
    simp only [same, groupExpression, bind_apply, Parser.start, opening, context, read, closing,
      Option.bind_some]
    rfl
  exact operandRule_of_primary (by omega) group (by decide : Token.finished ∈ stopTokens)

/-- An expression in parentheses is a statement up to the end of the text, if no arrow function
starts there. -/
theorem statement_of_comma {depth stop : Nat} {text : List Char}
    (read : (rules (depth + 2)).comma .module (.behind ⟨1, text⟩ 0) = some (e, s))
    (closing : expect ")" s = some ((), .behind ⟨stop, []⟩ 0))
    (noArrow : arrowFunction? (rules (depth + 5)) .module true (.facing 0 ⟨0, '(' :: text⟩ 0) =
      some (none, .facing 0 ⟨0, '(' :: text⟩ 0)) :
    (rules (depth + 8)).statement .module .outermost (.facing 0 ⟨0, '(' :: text⟩ 0) =
      some (.expression ⟨0, stop⟩ (.group ⟨0, stop⟩ e), .behind ⟨stop, []⟩ 0) := by
  have finished : Stops (.behind ⟨stop, []⟩ 0) := (by decide : Token.finished ∈ stopTokens)
  have operand := operand_of_comma read closing
  have marks : NotAt operatorOpeners (.facing 0 ⟨0, '(' :: text⟩ 0) :=
    (by decide : ∀ mark ∈ operatorOpeners, plainText (.mark "(") ≠ some mark)
  have unary : unaryRule (rules (depth + 3)) .module (.facing 0 ⟨0, '(' :: text⟩ 0) =
      some (.group ⟨0, stop⟩ e, .behind ⟨stop, []⟩ 0) :=
    unaryRule_of_operand (r := rules (depth + 3)) marks operand finished
  have value : (rules (depth + 6)).assignment .module true (.facing 0 ⟨0, '(' :: text⟩ 0) =
      some (.group ⟨0, stop⟩ e, .behind ⟨stop, []⟩ 0) :=
    value_of_unary rfl noArrow (by decide : Token.mark "(" ≠ .privateName) unary finished
  have comma : (rules (depth + 7)).comma .module (.facing 0 ⟨0, '(' :: text⟩ 0) =
      some (.group ⟨0, stop⟩ e, .behind ⟨stop, []⟩ 0) :=
    comma_of_value rfl value finished (by decide : Token.finished ≠ .mark ",")
  have ends : endStatement (.behind ⟨stop, []⟩ 0) = some ((), .behind ⟨stop, []⟩ 0) := rfl
  change statementRule (rules (depth + 7)) .module .outermost _ = _
  rw [statementRule_of_parenthesis, expressionStatement_of_comma rfl comma ends]
  rfl

/-- An expression in parentheses up to the end of the text is a module with nothing else, if no
arrow function starts there. -/
theorem read?_of_comma {text : List Char} {stop : Nat}
    (read : (rules (8 * text.length + 66)).comma .module (.behind ⟨1, text⟩ 0) = some (e, s))
    (closing : expect ")" s = some ((), .behind ⟨stop, []⟩ 0))
    (noArrow : arrowFunction? (rules (8 * text.length + 69)) .module true
      (.facing 0 ⟨0, '(' :: text⟩ 0) = some (none, .facing 0 ⟨0, '(' :: text⟩ 0)) :
    Module.read? ('(' :: text) = some ⟨[.expression ⟨0, stop⟩ (.group ⟨0, stop⟩ e)]⟩ := by
  have depth : 8 * ('(' :: text).length + 64 = 8 * text.length + 64 + 8 := by
    rw [List.length_cons]
    omega
  have statement : (rules (8 * text.length + 64 + 8)).statement .module .outermost
      (.facing 0 ⟨0, '(' :: text⟩ 0) =
      some (.expression ⟨0, stop⟩ (.group ⟨0, stop⟩ e), .behind ⟨stop, []⟩ 0) :=
    statement_of_comma read closing noArrow
  have run : StatementRun (rules (8 * ('(' :: text).length + 64)) (.facing 0 ⟨0, '(' :: text⟩ 0)
      [.expression ⟨0, stop⟩ (.group ⟨0, stop⟩ e)] (.behind ⟨stop, []⟩ 0) :=
    .more (by decide : Token.mark "(" ≠ .finished) (depth ▸ statement) (.done rfl)
  have noDirective : NoDirective (Lexeme.next ⟨0, '(' :: text⟩).token := by
    rintro _ ⟨⟩
  have few : [Statement.expression ⟨0, stop⟩ (.group ⟨0, stop⟩ e)].length <
      8 * ('(' :: text).length + 64 := by
    rw [List.length_singleton]
    omega
  exact read?_of_run rfl noDirective run rfl few

/-- No arrow function starts with a text in parentheses. -/
def NoArrow (text : List Char) : Prop :=
  ∀ depth, arrowFunction? (rules (depth + 5)) .module true
    (.facing 0 ⟨0, '(' :: (text ++ [')'])⟩ 0) =
    some (none, .facing 0 ⟨0, '(' :: (text ++ [')'])⟩ 0)

/-- A value in parentheses is a module with nothing else, if no arrow function starts there. -/
theorem read?_of_group {text : List Char} {Q : Source → Expr → Prop} (reads : Reads text Q)
    (noArrow : NoArrow text) :
    ∃ span span' e,
      Module.read? ('(' :: (text ++ [')'])) = some ⟨[.expression span (.group span' e)]⟩ ∧
      ∀ source : Source, source.text = '(' :: (text ++ [')']) → Q source e := by
  have depth : 8 * (text ++ [')']).length + 66 = 8 * text.length + 72 + 2 := by
    rw [List.length_append, List.length_singleton]
    omega
  obtain ⟨e, read, meaning⟩ := reads.read (8 * text.length + 73) 1 1 0 [')'] (by omega)
    (.parenthesis [])
  have comma : (rules (8 * (text ++ [')']).length + 66)).comma .module
      (.behind ⟨1, text ++ [')']⟩ 0) = some (e, .behind ⟨1 + Text.byteSize text, [')']⟩ 0) := by
    rw [depth]
    exact comma_of_value rfl read ((Closes.parenthesis []).stops _ _ _)
      (by decide : Token.mark ")" ≠ .mark ",")
  have noArrow' : arrowFunction? (rules (8 * (text ++ [')']).length + 69)) .module true
      (.facing 0 ⟨0, '(' :: (text ++ [')'])⟩ 0) =
      some (none, .facing 0 ⟨0, '(' :: (text ++ [')'])⟩ 0) :=
    noArrow (8 * (text ++ [')']).length + 64)
  refine ⟨_, _, e, read?_of_comma comma rfl noArrow', ?_⟩
  intro source same
  have goesOn := source.goesOn_zero
  rw [same] at goesOn
  exact meaning source goesOn.behind_cons

theorem noArrow_of_noTarget {text : List Char} (noTarget : ∀ depth c,
    (rules depth).target c (.behind ⟨1, '\x7b' :: (text ++ [')'])⟩ 0) = none) :
    NoArrow ('\x7b' :: text) := fun depth =>
  arrowFunction?_of_noTarget (noTarget (depth + 5))

theorem noArrow_of_members {ι : Type} {gap tail : List Char} {K : ι → Key → Prop}
    {Q : ι → Source → Expr → Prop} (isGap : IsGap gap)
    (closes : ∀ rest, Closes (tail ++ rest)) (written value : ι → List Char) {xs : List ι}
    (keys : ∀ x ∈ xs, ReadsKey (written x) (K x)) (values : ∀ x ∈ xs, Reads (value x) (Q x))
    (noPatterns : ∀ x ∈ xs, NoPattern (value x)) (nonempty : xs ≠ []) :
    NoArrow ('\x7b' :: (gap ++ joined gap tail
      (xs.map fun x => written x ++ ':' :: ' ' :: value x))) := by
  apply noArrow_of_noTarget
  intro depth c
  cases xs with
  | nil => exact absurd rfl nonempty
  | cons x xs =>
    have shape : ∃ after, Closes after ∧ joined gap (tail ++ [')'])
        ((x :: xs).map fun x => written x ++ ':' :: ' ' :: value x) =
        written x ++ ':' :: ' ' :: (value x ++ after) := by
      cases xs with
      | nil => exact ⟨tail ++ [')'], closes [')'], by simp [joined]⟩
      | cons y xs => exact ⟨_, .comma _, by simp [joined]; rfl⟩
    obtain ⟨after, closes', shape⟩ := shape
    rw [List.append_assoc, joined_append, shape]
    exact target_of_member isGap (keys x (by simp)) (values x (by simp)) (noPatterns x (by simp))
      closes' depth c 1 1 0

theorem noArrow_empty : NoArrow ['\x7b', '\x7d'] := fun _ => rfl

theorem noArrow_emptyLine : NoArrow ['\x7b', '\n', '\x7d'] := fun _ => rfl

end DesignLink.Script
