import DesignLink.Proofs.Layout.Types

/-!
Functions, literals and classes give the expressions in them in the order of the text, if the rules
that they lead back to do.
-/

namespace DesignLink.Script.Grammar

open DesignLink.Script.Parser

theorem silent_arrow : Silent arrow := by
  unfold arrow
  refine .of_since fun s => .pass silent_onNewLine fun _ => .pass (silent_require _) fun _ => ?_
  exact .last (silent_expect _)

theorem silent_guessArrow (c : Context) : Silent (guessArrow c) := by
  unfold guessArrow
  exact .of_since fun s => .pass (silent_peek _) fun _ => .done rfl

theorem silent_moreStatements :
    Silent (do return !(← at? "\x7d") && !((← token) == .finished)) :=
  .of_since fun _ => .pass (silent_at? _) fun _ => .pass silent_token fun _ => .done rfl

theorem silent_notClosed : Silent (do return !(← at? "\x7d")) :=
  .of_since fun _ => .pass (silent_at? _) fun _ => .done rfl

variable {r : Rules} (orderly : r.Orderly) (c : Context)
include orderly

/-! Functions. -/

theorem lays_skipDirectives (place : StatementPlace) :
    Lays (skipDirectives r c place) (·.flatMap Statement.parts) := by
  unfold skipDirectives
  refine .of_since fun s => .iterate (fun _ => []) (fun _ => ?_) _ _
  refine .pass silent_token fun token => ?_
  split
  case h_2 => exact .done rfl
  refine .read (orderly.statement _ _) fun statement => ?_
  split
  -- A directive is dropped with the string that it is.
  · exact .drop (List.nil_sublist _)
  · exact .done (by simp)

theorem lays_statementsUntilBrace (place : StatementPlace) :
    Lays (statementsUntilBrace r c place) (·.flatMap Statement.parts) :=
  lays_collectWhile _ silent_moreStatements (orderly.statement _ _)

omit orderly in
theorem statementParts_eq (statements : List Statement) :
    statementParts statements = statements.flatMap Statement.parts := by
  rw [statementParts, List.flatMap_def]

theorem lays_functionBody : Lays (functionBody r c) id := by
  unfold functionBody
  refine .of_since fun s => .pass (silent_expect _) fun _ => ?_
  refine .read (lays_skipDirectives orderly _ _) fun _ => ?_
  refine .read (lays_statementsUntilBrace orderly _ _) fun _ => ?_
  exact .pass (silent_expect _) fun _ => .done (by simp [statementParts_eq])

theorem lays_decorators : Lays (decorators r c) id := by
  have decorator : Lays (do advance; r.operand { c with decorates := true }) ([·]) :=
    .of_since fun s => .pass silent_advance fun _ => .last (orderly.operand _)
  unfold decorators
  exact .of_since fun s => .lastAs (lays_collectWhile _ (silent_at? _) decorator) (by simp)

theorem lays_functionRest (form : FunctionForm) : Lays (functionRest r c form) (·.2) := by
  unfold functionRest
  refine .of_since fun s => .read (lays_typeParameters orderly _) fun _ => ?_
  refine .read (lays_parameters orderly _ (lays_decorators orderly _)) fun _ => ?_
  refine .read (lays_resultAnnotated orderly _) fun _ => .pass (silent_at? _) fun _ => .ite ?_ ?_
  · exact .read (lays_functionBody orderly _) fun _ => .done rfl
  · refine .pass (silent_require _) fun _ => .pass silent_endStatement fun _ => .give ?_
    exact .done (by simp)

theorem lays_functionParts (needsName allowsNoBody : Bool) :
    Lays (functionParts r c needsName allowsNoBody) id := by
  unfold functionParts
  refine .of_since fun s => .pass (silent_eat _) fun _ => .pass (silent_expect _) fun _ => ?_
  refine .pass (silent_eat _) fun _ => .pass (silent_atName _) fun _ => ?_
  refine .ite (.pass silent_advance fun _ => ?_) (.pass (silent_require _) fun _ => ?_)
  all_goals exact .read (lays_functionRest orderly _ _) fun _ => .done rfl

theorem lays_functionExpression : Lays (functionExpression r c) ([·]) := by
  unfold functionExpression
  refine .of_start fun s => .read (lays_functionParts orderly _ _ _) fun _ => ?_
  exact .node fun _ => ⟨rfl, rfl, rfl⟩

theorem lays_methodValue (form : FunctionForm) : Lays (methodValue r c form) ([·.2]) := by
  unfold methodValue
  refine .of_start fun s => .read (lays_functionRest orderly _ _) fun parts => ?_
  exact .nodeIn (Expr.function · parts.2) fun _ => ⟨rfl, rfl, rfl, rfl⟩

theorem lays_arrowBody (isAsync allowsResult : Bool) :
    Lays (arrowBody r c isAsync allowsResult) id := by
  unfold arrowBody
  refine .of_since fun s => .pass (silent_at? _) fun _ => .ite ?_ ?_
  · exact .last (lays_functionBody orderly _)
  · exact .read (orderly.assignment _ _) fun _ => .done rfl

theorem lays_parenthesizedArrow (allowsResult : Bool) :
    Lays (parenthesizedArrow r c allowsResult) ([·]) := by
  unfold parenthesizedArrow
  refine .of_start fun s => .pass (silent_eat _) fun _ => ?_
  refine .read (lays_typeParameters orderly _) fun _ => ?_
  refine .read (lays_parameters orderly _ lays_undecorated) fun _ => ?_
  refine .pass (silent_at? _) fun _ => ?_
  refine .read (lays_resultAnnotated orderly _) fun _ => .pass silent_arrow fun _ => ?_
  refine .read (lays_arrowBody orderly _ _ _) fun _ => .pass (silent_at? _) fun _ => ?_
  exact .pass (silent_require _) fun _ => .node fun _ => ⟨rfl, rfl, rfl⟩

theorem lays_asyncArrow (allowsResult : Bool) : Lays (asyncArrow r c allowsResult) ([·]) := by
  unfold asyncArrow
  refine .of_start fun s => .pass (silent_expect _) fun _ => .pass silent_onNewLine fun _ => ?_
  refine .pass (silent_require _) fun _ => .pass (silent_at? _) fun _ => ?_
  refine .pass (silent_require _) fun _ => .pass (silent_name _) fun _ => ?_
  refine .pass silent_arrow fun _ => .read (lays_arrowBody orderly _ _ _) fun _ => ?_
  exact .node fun _ => ⟨rfl, rfl, rfl⟩

theorem lays_arrowFunction? (allowsResult : Bool) :
    Lays (arrowFunction? r c allowsResult) Option.toList := by
  unfold arrowFunction?
  refine .of_since fun s => .pass (silent_atAny _) fun _ => .ite ?_ (.done rfl)
  refine .pass (silent_guessArrow _) fun guess => ?_
  have same (e : Option Expr) : [] ++ Option.elim e [] ([·]) = e.toList := by cases e <;> rfl
  cases guess with
  | yes => exact .read (lays_parenthesizedArrow orderly _ _) fun _ => .done rfl
  | maybe => exact .lastAs (lays_attempt (lays_parenthesizedArrow orderly _ _)) same
  | no =>
    refine .pass (silent_at? _) fun _ => .ite ?_ (.done rfl)
    exact .lastAs (lays_attempt (lays_asyncArrow orderly _ _)) same

/-! Literals. -/

theorem lays_accessor (isGetter : Bool) (s : State) :
    Since s [] (accessor r c s.lexeme.start isGetter) Member.parts := by
  unfold accessor
  refine .read (lays_memberKey orderly _) fun key => .pass (silent_wouldRead _) fun _ => ?_
  refine .pass (silent_require _) fun _ => .read (lays_methodValue orderly _ _) fun value => ?_
  exact .pass (silent_require _) fun _ => .pass (silent_spanFrom _) fun _ => .done rfl

omit orderly in
theorem parts_of_short {key : Key × Bool} {short : Option String} {s s' s'' : State}
    (named : nameHere? c s = some (short, s')) (read : memberKey r c s = some (key, s''))
    (isShort : short.isSome) : key.1.parts = [] := by
  unfold nameHere? at named
  cases token : s.lexeme.token with
  | word text escaped =>
    simp only [memberKey, bind_apply, start, Parser.token, Option.bind_some, token] at read
    simp only [advance, token, Option.bind_some, spanFrom, pure_apply, Option.some.injEq,
      Prod.mk.injEq] at read
    rw [← read.1]
    rfl
  | _ =>
    simp only [token, Option.some.injEq, Prod.mk.injEq] at named
    simp [← named.1] at isShort

/-- A member whose key may stand for its value: where its name starts, the name and the key. -/
theorem since_shortKey {β : Type} {s : State} {after : β → List Expr}
    {next : Nat → Option String → Key × Bool → Parser β}
    (goes : ∀ nameStart short key, s.lexeme.start ≤ nameStart →
      (short.isSome → key.1.parts = []) → Since s key.1.parts (next nameStart short key) after) :
    Since s [] (start >>= fun nameStart => nameHere? c >>= fun short =>
      memberKey r c >>= fun key => next nameStart short key) after := by
  have starts : Ensures (Passage s []) start fun nameStart s₁ =>
      Passage s [] s₁ ∧ s.lexeme.start ≤ nameStart := by
    intro s₁ passage nameStart s₂ run
    cases run
    exact ⟨passage, passage.start_le⟩
  refine starts.bind fun nameStart => ?_
  have names : Ensures (fun s₁ => Passage s [] s₁ ∧ s.lexeme.start ≤ nameStart) (nameHere? c)
      fun short s₁ => (Passage s [] s₁ ∧ s.lexeme.start ≤ nameStart) ∧
        nameHere? c s₁ = some (short, s₁) := by
    intro s₁ holds short s₂ run
    obtain rfl := still_nameHere? c run
    exact ⟨holds, run⟩
  refine names.bind fun short => ?_
  rintro s₁ ⟨⟨passage, low⟩, named⟩
  have reads : Ensures (· = s₁) (memberKey r c) fun key s₂ =>
      Passage s key.1.parts s₂ ∧ (short.isSome → key.1.parts = []) := by
    rintro _ rfl key s₂ run
    have read : Passage _ key.1.parts s₂ := lays_memberKey orderly c _ passage.placed run
    exact ⟨passage.trans read, parts_of_short c named run⟩
  exact reads.bind (fun key s₂ holds => goes nameStart short key low holds.2 holds.1) rfl

omit orderly in
theorem since_leaf {β : Type} {s : State} {after : β → List Expr} {nameStart : Nat}
    {next : Span → Parser β} (text : String) (low : s.lexeme.start ≤ nameStart)
    (goes : ∀ span, Since s [.identifier span text] (next span) after) :
    Since s [] (spanFrom nameStart >>= next) after := by
  intro s₁ passage b s' run
  refine goes ⟨nameStart, s₁.previous⟩ ?_ run
  have leaf : Laid nameStart s₁.previous [.identifier ⟨nameStart, s₁.previous⟩ text] :=
    Laid.node .nil rfl rfl
  exact { passage with
    laid := leaf.mono low (Nat.le_refl _)
    written := fun source _ e member => by
      obtain rfl := List.mem_singleton.mp member
      exact .intro True.intro nofun }

theorem lays_objectMember : Lays (objectMember r c) Member.parts := by
  unfold objectMember
  refine .of_start fun s => .pass (silent_eat _) fun _ => .ite ?_ ?_
  · refine .read (lays_value orderly _) fun _ => .pass (silent_spanFrom _) fun _ => .done rfl
  refine .pass (silent_eatModifier _ _) fun _ => .ite (lays_accessor orderly _ _ _) ?_
  refine .pass (silent_eatModifier _ _) fun _ => .ite (lays_accessor orderly _ _ _) ?_
  refine .pass (silent_eatModifier _ _) fun _ => .pass (silent_eat _) fun _ => ?_
  refine since_shortKey orderly c fun nameStart short key low named => ?_
  obtain ⟨key, computed⟩ := key
  refine .pass (silent_atAny _) fun _ => .ite ?_ (.pass (silent_require _) fun _ => ?_)
  · refine .read (lays_methodValue orderly _ _) fun value => ?_
    exact .pass (silent_spanFrom _) fun _ => .done rfl
  refine .pass (silent_eat _) fun _ => .ite ?_ ?_
  · refine .read (lays_value orderly _) fun _ => .pass (silent_spanFrom _) fun _ => .done rfl
  split
  case h_1 text =>
    have alone : key.parts = [] := named rfl
    rw [alone]
    refine since_leaf text low fun span => .pass (silent_eat _) fun _ => .ite ?_ ?_
    · refine .read (lays_value orderly _) fun _ => .pass silent_addWaiting fun _ => ?_
      exact .pass (silent_spanFrom _) fun _ => .done rfl
    · exact .pass (silent_spanFrom _) fun _ => .done (by rw [Member.parts, alone]; rfl)
  case h_2 => exact .fail

theorem shows_accessor {source : Source} (start : Nat) (isGetter : Bool) :
    Shows source (Member.IsWritten source) (accessor r c start isGetter) := by
  obtain ⟨depth, rfl⟩ := orderly.grammar
  unfold accessor
  refine .behind (lays_memberKey orderly _) fun key => .behind (silent_wouldRead _) fun _ => ?_
  refine .behind (silent_require _) fun _ => ?_
  refine .taken (lays_methodValue orderly _ _) fun value s s' stands read => ?_
  refine .behind (silent_require _) fun _ => .behind (silent_spanFrom _) fun _ => .pure ?_
  exact .method ⟨depth, _, _, _, s, s', read, stands⟩

theorem shows_objectMember {source : Source} :
    Shows source (Member.IsWritten source) (objectMember r c) := by
  obtain ⟨depth, rfl⟩ := orderly.grammar
  unfold objectMember
  refine .behind silent_start fun start => .behind (silent_eat _) fun _ => .ite ?_ ?_
  · exact .behind (lays_value orderly _) fun _ => .behind (silent_spanFrom _) fun _ => .pure trivial
  refine .behind (silent_eatModifier _ _) fun _ => .ite (shows_accessor orderly c start _) ?_
  refine .behind (silent_eatModifier _ _) fun _ => .ite (shows_accessor orderly c start _) ?_
  refine .behind (silent_eatModifier _ _) fun _ => .behind (silent_eat _) fun _ => ?_
  refine .behind silent_start fun nameStart => .behind (silent_nameHere? _) fun short => ?_
  refine .behind (lays_memberKey orderly _) fun key => .behind (silent_atAny _) fun _ => .ite ?_ ?_
  · refine .taken (lays_methodValue orderly _ _) fun value s s' stands read => ?_
    refine .behind (silent_spanFrom _) fun _ => .pure ?_
    exact .method ⟨depth, c, _, value.1, s, s', read, stands⟩
  refine .behind (silent_require _) fun _ => ?_
  refine .behind (silent_eat _) fun _ => .ite ?_ ?_
  · refine .taken (lays_value orderly _) fun value s s' stands read => ?_
    refine .behind (silent_spanFrom _) fun _ => .pure ?_
    exact .own _ ⟨depth, s, s', read, stands⟩
  split
  case h_1 text _ =>
    refine .behind (silent_spanFrom _) fun span => .behind (silent_eat _) fun _ => .ite ?_ ?_
    · refine .behind (lays_value orderly _) fun _ => .behind silent_addWaiting fun _ => ?_
      exact .behind (silent_spanFrom _) fun _ => .pure trivial
    · exact .behind (silent_spanFrom _) fun _ => .pure (.name span text)
  case h_2 => exact Ensures.fail

theorem lays_objectLiteral : Lays (objectLiteral r c) ([·]) := by
  intro s placed e s' run
  obtain ⟨_, _, started, rest⟩ := run_of_bind run
  cases started
  obtain ⟨_, s₁, opened, rest⟩ := run_of_bind rest
  obtain ⟨members, s₂, read, rest⟩ := run_of_bind rest
  obtain ⟨_, s₃, closed, rest⟩ := run_of_bind rest
  cases rest
  have opens : Passage s [] s₁ := silent_expect _ s placed opened
  have inside : Passage s₁ (members.flatMap Member.parts) s₂ :=
    lays_listUntil _ _ (lays_objectMember orderly _) s₁ opens.placed read
  have closes : Passage s₂ [] s' := silent_expect _ s₂ inside.placed closed
  have whole : Passage s (members.flatMap Member.parts) s' := by
    simpa using (opens.trans inside).trans closes
  refine whole.node rfl fun source rooted => ?_
  exact shows_listUntil _ _ (lays_objectMember orderly _) (shows_objectMember orderly _)
    ⟨opens.placed, opens.rooted source rooted⟩ read

theorem lays_arrayItem : Lays (arrayItem r c) Item.parts := by
  unfold arrayItem
  refine .of_since fun s => .pass silent_lexeme fun l => .pass (silent_at? _) fun _ => ?_
  refine .ite (.done rfl) ?_
  refine .pass (silent_eat _) fun _ => .ite ?_ ?_
  · exact .read (lays_value orderly _) fun _ => .pass (silent_spanFrom _) fun _ => .done rfl
  · exact .read (lays_value orderly _) fun _ => .done rfl

theorem lays_arrayLiteral : Lays (arrayLiteral r c) ([·]) := by
  unfold arrayLiteral
  refine .of_start fun s => .pass (silent_expect _) fun _ => ?_
  refine .read (lays_listUntil _ _ (lays_arrayItem orderly _)) fun _ => ?_
  exact .pass (silent_expect _) fun _ => .node fun _ => ⟨rfl, rfl, rfl⟩

theorem lays_argument : Lays (argument r c) Item.parts := by
  unfold argument
  refine .of_start fun s => .pass (silent_eat _) fun _ => .ite ?_ ?_
  · exact .read (lays_value orderly _) fun _ => .pass (silent_spanFrom _) fun _ => .done rfl
  · exact .read (lays_value orderly _) fun _ => .done rfl

theorem lays_arguments : Lays (arguments r c) (·.flatMap Item.parts) := by
  unfold arguments
  refine .of_since fun s => .pass (silent_expect _) fun _ => ?_
  refine .read (lays_listUntil _ _ (lays_argument orderly _)) fun _ => ?_
  exact .pass (silent_expect _) fun _ => .done rfl

theorem lays_template (isTagged : Bool) : Lays (template r c isTagged) id := by
  unfold template
  exact lays_templateParts _ (.of_since fun s => .read (orderly.comma _) fun _ => .done rfl)

omit orderly in
/-- A regular expression starts where a mark with a slash was taken for an operator. -/
theorem ensures_regularExpression {s : State} {text : String} {rest : List Char}
    (placed : s.Placed) (mark : s.lexeme.token = .mark text) (slash : text.toList = '/' :: rest) :
    Ensures (· = s) regularExpression fun e => Passage s [e] := by
  unfold regularExpression
  refine .of_lexeme ?_
  split
  case h_1 => exact .fail
  case h_2 body pattern =>
    split
    case h_1 => exact .fail
    case h_2 place flags =>
      have leads : Place.Leads ⟨s.lexeme.start + 1, s.lexeme.here.drop 1⟩ place :=
        (Token.leads_scanPattern pattern).trans (Token.leads_scanFlags flags)
      have reached (source : Source) (rooted : s.Rooted source) :
          source.GoesOn place.offset place.rest := by
        obtain ⟨later, here⟩ := rooted.mark text mark
        have behind : source.GoesOn s.lexeme.start ('/' :: (rest ++ later)) := by
          rw [← List.cons_append, ← slash, here]
          exact rooted.here
        rw [← here, slash] at leads
        exact leads.goesOn behind.behind_cons
      rintro _ rfl e s' run
      cases run
      have behind := Nat.le_trans (Nat.le_succ _) leads.le
      exact .nodeOf rfl (ensures_moveTo placed behind reached rfl rfl) rfl

/-! Classes. -/

theorem lays_classMemberKey : Lays (classMemberKey r c) id := by
  unfold classMemberKey
  refine .of_since fun s => .pass silent_token fun token => ?_
  split
  · exact .pass silent_advance fun _ => .done rfl
  · exact .read (lays_memberKey orderly _) fun key => .done rfl

theorem lays_classMemberRest : Lays (classMemberRest r c) id := by
  unfold classMemberRest
  refine .of_since fun s => .pass (silent_eatModifier _ _) fun _ => .ite
    (.give <| .ite (.give ?_) (.pass (silent_eatModifier _ _) fun _ => ?_))
    (.pass (silent_eatModifier _ _) fun _ =>
      .ite (.give ?_) (.pass (silent_eatModifier _ _) fun _ => ?_))
  all_goals
    refine .pass (silent_eat _) fun _ => .read (lays_classMemberKey orderly _) fun _ => .ite ?_ ?_
    · refine .pass (silent_wouldRead _) fun _ => .pass (silent_require _) fun _ => ?_
      refine .read (lays_functionRest orderly _ _) fun _ => ?_
      exact .pass (silent_require _) fun _ => .done rfl
    refine .pass (silent_eat _) fun _ => .pass (silent_atAny _) fun _ => .ite ?_ ?_
    · exact .read (lays_functionRest orderly _ _) fun _ => .done rfl
    refine .pass (silent_require _) fun _ => .ite (.give ?_) (.pass (silent_eat _) fun _ => ?_)
    all_goals
      refine .read (lays_annotated orderly _) fun _ => ?_
      refine .read (lays_initializer orderly _) fun _ => ?_
      exact .pass silent_endStatement fun _ => .done rfl

theorem lays_classMember : Lays (classMember r c) id := by
  have modifiers : Silent (eatMemberModifiers r) := by
    refine silent_collectWhile _ (.of_since fun s => ?_) silent_advance
    refine .pass (silent_at? _) fun _ => ?_
    refine .ite (.last (silent_wouldRead _)) (.pass (silent_atAny _) fun _ => .ite ?_ (.done rfl))
    exact .last (silent_wouldRead _)
  unfold classMember
  refine .of_since fun s => .pass (silent_eat _) fun _ => .ite (.done rfl) ?_
  refine .pass (silent_wouldRead _) fun _ => .ite ?_ (.read (lays_decorators orderly _) fun _ => ?_)
  · refine .pass silent_advance fun _ => .pass silent_advance fun _ => ?_
    refine .read (lays_statementsUntilBrace orderly _ _) fun _ => ?_
    exact .pass (silent_expect _) fun _ => .done (by simp [statementParts_eq])
  refine .pass modifiers fun _ => .pass (silent_wouldRead _) fun _ => .ite ?_ ?_
  · refine .read (lays_indexSignature orderly _) fun _ => .pass (silent_eat _) fun _ => ?_
    exact .pass silent_endStatement fun _ => .done rfl
  · exact .read (lays_classMemberRest orderly _) fun _ => .done rfl

theorem lays_heritage : Lays (heritage r c) id := by
  have implemented : Lays (do qualifiedName r c; optionalTypeArguments r c) id :=
    .of_since fun s => .pass (silent_qualifiedName _ _) fun _ =>
      .last (lays_optionalTypeArguments orderly _)
  unfold heritage
  refine .of_since fun s => .pass (silent_eat _) fun _ => .ite ?_ (.give ?_)
  · refine .read (orderly.operand _) fun _ => ?_
    refine .read (lays_optionalTypeArguments orderly _) fun _ => ?_
    refine .give (.pass (silent_eat _) fun _ => .ite ?_ (.give (.done (by simp))))
    exact .read (lays_separated _ _ implemented) fun _ => .give (.done (by simp))
  · refine .pass (silent_eat _) fun _ => .ite ?_ (.give (.done rfl))
    exact .read (lays_separated _ _ implemented) fun _ => .give (.done (by simp))

theorem lays_classParts (needsName : Bool) : Lays (classParts r c needsName) id := by
  unfold classParts
  refine .of_since fun s => .pass (silent_expect _) fun _ => .pass (silent_atName _) fun _ => ?_
  refine .pass (silent_wouldRead _) fun _ => ?_
  refine .ite (.pass silent_advance fun _ => ?_) (.pass (silent_require _) fun _ => ?_)
  all_goals
    refine .read (lays_typeParameters orderly _) fun _ => ?_
    refine .read (lays_heritage orderly _) fun _ => ?_
    refine .pass (silent_expect _) fun _ => ?_
    refine .read (lays_collectWhile _ silent_notClosed (lays_classMember orderly _)) fun _ => ?_
    exact .pass (silent_expect _) fun _ => .done (by simp)

theorem lays_classExpression : Lays (classExpression r c) ([·]) := by
  unfold classExpression
  refine .of_start fun s => .read (lays_decorators orderly _) fun _ => ?_
  exact .read (lays_classParts orderly _ _) fun _ => .node fun _ => ⟨rfl, rfl, rfl⟩

end DesignLink.Script.Grammar
