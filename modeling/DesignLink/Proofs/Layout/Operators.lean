import DesignLink.Proofs.Layout.Markup
import DesignLink.Script.Operators

/-!
Operands and operators give the expressions in them in the order of the text, if the rules that
they lead back to do. What goes on behind an operand is given where the operand starts.
-/

namespace DesignLink.Script.Grammar

open DesignLink.Script.Parser

theorem lays_superExpression : Lays superExpression ([·]) := by
  unfold superExpression
  refine .of_start fun s => .pass (silent_expect _) fun _ => .pass (silent_atAny _) fun _ => ?_
  exact .pass (silent_require _) fun _ => .node fun _ => ⟨rfl, rfl, rfl⟩

theorem lays_single {make : Span → Expr}
    (leaf : ∀ span, (make span).span = span ∧ (make span).isDelimited = false ∧
      (make span).parts = []) :
    Lays (single make) ([·]) := by
  unfold single
  exact .of_start fun s => .pass silent_advance fun _ => .node leaf

theorem since_namedMember (s : State) (object : Expr) :
    Since s [object] (namedMember s.lexeme.start object) ([·]) := by
  unfold namedMember
  refine .pass silent_token fun token => ?_
  split
  · exact .pass silent_advance fun _ => .node fun _ => ⟨rfl, rfl, rfl⟩
  · exact .pass silent_anyWord fun _ => .node fun _ => ⟨rfl, rfl, rfl⟩

variable {r : Rules} (orderly : r.Orderly) (c : Context)
include orderly

theorem lays_importExpression : Lays (importExpression r c) ([·]) := by
  unfold importExpression
  refine .of_start fun s => .pass (silent_expect _) fun _ => .pass (silent_eat _) fun _ => .ite
    (.pass silent_anyWord fun _ => .ite (.node fun _ => ⟨rfl, rfl, rfl⟩) <|
      .pass (silent_require _) fun _ => ?_) ?_
  all_goals
    refine .pass (silent_expect _) fun _ => .read (lays_value orderly _) fun _ => ?_
    refine .pass (silent_eat _) fun _ => .ite (.pass (silent_at? _) fun _ => .ite (.give ?_)
      (.read (lays_value orderly _) fun _ => .pass (silent_eat _) fun _ => .give ?_)) (.give ?_)
    all_goals exact .pass (silent_expect _) fun _ => .node fun _ => ⟨rfl, rfl, rfl⟩

theorem lays_groupExpression : Lays (groupExpression r c) ([·]) := by
  obtain ⟨depth, rfl⟩ := orderly.grammar
  intro s placed e s' run
  obtain ⟨_, _, started, rest⟩ := run_of_bind run
  cases started
  obtain ⟨_, s₁, opened, rest⟩ := run_of_bind rest
  obtain ⟨inner, s₂, read, rest⟩ := run_of_bind rest
  obtain ⟨_, _, closed, rest⟩ := run_of_bind rest
  cases rest
  have opens : Passage s [] s₁ := silent_expect _ s placed opened
  have inside : Passage s₁ [inner] s₂ := orderly.comma _ s₁ opens.placed read
  have closes : Passage s₂ [] s' := silent_expect _ s₂ inside.placed closed
  refine ((opens.trans inside).trans closes).node rfl fun source rooted => ?_
  exact ⟨_, depth, s₁, s₂, read, opens.placed, opens.rooted source rooted⟩

theorem lays_instantiationTypes : Lays (instantiationTypes r c) id := by
  unfold instantiationTypes
  refine .of_since fun s => .pass silent_splitAngle fun _ => .pass (silent_expect _) fun _ => ?_
  refine .read (lays_separated _ _ (orderly.type _)) fun parts => .pass silent_lexeme fun _ => ?_
  refine .pass (silent_require _) fun _ => .pass (silent_expect _) fun _ => ?_
  have end_ (follows : Bool) : Since s ([] ++ parts.flatMap id) (do
      require follows
      return parts.flatten) id :=
    .pass (silent_require _) fun _ => .done (by simp)
  refine .pass silent_token fun token => ?_
  split
  case h_1 | h_8 => exact .give (end_ _)
  case h_2 | h_3 | h_4 | h_5 => exact .pass silent_onNewLine fun _ => end_ _
  case h_6 => exact .ite (.give (end_ _)) (.pass silent_onNewLine fun _ => .give (end_ _))
  case h_7 =>
    exact .ite (.give (end_ _))
      (.ite (.give (end_ _)) (.pass silent_onNewLine fun _ => .give (end_ _)))

theorem since_bracketMember (s : State) (object : Expr) :
    Since s [object] (bracketMember r c s.lexeme.start object) ([·]) := by
  unfold bracketMember
  refine .pass (silent_expect _) fun _ => .read (orderly.comma _) fun _ => ?_
  exact .pass (silent_expect _) fun _ => .node fun _ => ⟨rfl, rfl, rfl⟩

theorem since_memberStep (s : State) (allowsChain : Bool) (e : Chained) :
    Since s [e.expr] (memberStep r c s.lexeme.start allowsChain e)
      fun next => [(next.getD e).expr] := by
  unfold memberStep
  refine .pass silent_token fun token => ?_
  split
  case h_1 =>
    exact .ite (.done rfl) (.goOn _ (since_bracketMember orderly c s _) fun _ => .done rfl)
  case h_2 =>
    exact .pass silent_advance fun _ => .goOn _ (since_namedMember s _) fun _ => .done rfl
  case h_3 =>
    refine .ite (.done rfl) (.pass (silent_wouldRead _) fun _ => ?_)
    refine .pass (silent_wouldRead _) fun _ => ?_
    refine .ite (.done rfl) (.pass silent_advance fun _ => .ite ?_ ?_)
    · exact .goOn _ (since_bracketMember orderly c s _) fun _ => .done rfl
    · exact .goOn _ (since_namedMember s _) fun _ => .done rfl
  case h_4 =>
    refine .pass silent_onNewLine fun _ => .ite (.done rfl) (.pass silent_advance fun _ => ?_)
    exact .nodeIn (Expr.nonNull · e.expr) fun _ => ⟨rfl, rfl, rfl, rfl⟩
  case h_5 =>
    refine .pass (silent_require _) fun _ => .read (lays_template orderly _ _) fun parts => ?_
    exact .nodeIn (Expr.other · (e.expr :: parts)) fun _ => ⟨rfl, rfl, rfl, rfl⟩
  case h_6 | h_7 =>
    refine .read (lays_attempt (lays_instantiationTypes orderly _)) fun found => ?_
    cases found with
    | some types => exact .nodeIn (Expr.instantiation · e.expr types) fun _ => ⟨rfl, rfl, rfl, rfl⟩
    | none => exact .done rfl
  case h_8 => exact .done rfl

theorem since_memberRest (s : State) (allowsChain : Bool) (e : Chained) :
    Since s [e.expr] (memberRest r c s.lexeme.start allowsChain e) ([·.expr]) := by
  unfold memberRest
  refine .iterate ([·.expr]) (fun e => ?_) _ e
  refine .goOn _ (since_memberStep orderly c s _ e) fun next => ?_
  cases next <;> exact .done rfl

theorem lays_memberRest {operand : Parser Expr} (goes : Lays operand ([·])) :
    Lays (do
      let calleeStart ← start
      let callee ← operand
      memberRest r c calleeStart false ⟨callee, false⟩) ([·.expr]) := by
  refine .of_start fun s => .read goes fun callee => ?_
  exact since_memberRest orderly c s false ⟨callee, false⟩

theorem lays_newExpression {operand : Parser Expr} (goes : Lays operand ([·])) :
    Lays (newExpression r c operand) ([·]) := by
  unfold newExpression
  refine .of_start fun s => .pass (silent_expect _) fun _ => .pass (silent_eat _) fun _ => ?_
  refine .ite ?_ ?_
  · exact .pass (silent_expect _) fun _ => .node fun _ => ⟨rfl, rfl, rfl⟩
  refine .pass (silent_at? _) fun _ => .pass (silent_require _) fun _ => ?_
  refine .nested (lays_memberRest orderly c goes) fun callee => .pass (silent_at? _) fun _ => ?_
  refine .ite (.read (lays_arguments orderly _) fun items => ?_) (.give ?_)
  · refine .pass (silent_at? _) fun _ => .pass (silent_require _) fun _ => ?_
    refine .node fun _ => ⟨rfl, rfl, congrArg (callee.expr :: ·) ?_⟩
    refine congrArg (items.flatMap ·) (funext fun item => ?_)
    cases item <;> rfl
  · exact .pass (silent_at? _) fun _ => .pass (silent_require _) fun _ => .node fun _ => ⟨rfl, rfl, rfl⟩

theorem ensures_templateLiteral {s : State} {isLast isPlain : Bool} (placed : s.Placed)
    (opens : s.lexeme.token = .template isLast isPlain) :
    Ensures (· = s) (do
      let start ← start
      let parts ← template r c false
      return .template (← spanFrom start) parts) fun e => Passage s [e] := by
  have part : Lays (do return [← r.comma c.withIn]) id :=
    .of_since fun s => .read (orderly.comma _) fun _ => .done rfl
  rintro s rfl e s' run
  obtain ⟨⟨parts, s₁⟩, ran, made⟩ := Option.bind_eq_some_iff.mp
    (show (template r c false _).bind _ = some (e, s') from run)
  cases made
  obtain ⟨passage, leaves⟩ := ensures_templateParts false part placed rfl ran
  refine passage.node rfl fun source rooted => ?_
  obtain ⟨first, here⟩ := (rooted.template isLast isPlain opens).opens
  obtain ⟨-, closes⟩ := leaves source rooted
  obtain ⟨closing, rest, goesOn, behind, ends⟩ := closes rfl
  have opening : source.GoesOn s.lexeme.start ('\x60' :: first) := here ▸ rooted.here
  have between := opening.textOf_between goesOn behind
  rwa [show closing + '\x60'.utf8Size = s'.previous from ends.symm] at between

theorem lays_primary (depth : Nat) : Lays (primary r c depth) ([·]) := by
  induction depth with
  | zero => exact .of_since fun _ => .fail
  | succ depth ih =>
    have name : Lays (do
        let start ← start
        let text ← name c
        return .identifier (← spanFrom start) text) ([·]) :=
      .of_start fun s => .pass (silent_name _) fun _ => .node fun _ => ⟨rfl, rfl, rfl⟩
    unfold primary
    refine .of_token fun s placed => ?_
    have anew {p : Parser Expr} (goes : Lays p ([·])) : Ensures (· = s) p fun e => Passage s [e] := by
      rintro _ rfl e s' run
      exact goes _ placed run
    split
    case h_1 | h_2 | h_3 | h_11 | h_12 | h_13 | h_14 =>
      exact anew (lays_single fun _ => ⟨rfl, rfl, rfl⟩)
    case h_4 opens => exact ensures_templateLiteral orderly c placed opens
    case h_5 => exact anew (lays_groupExpression orderly _)
    case h_6 => exact anew (lays_arrayLiteral orderly _)
    case h_7 => exact anew (lays_objectLiteral orderly _)
    case h_8 slash | h_9 slash => exact ensures_regularExpression placed slash rfl
    case h_10 | h_16 => exact anew (lays_classExpression orderly _)
    case h_15 => exact anew (lays_functionExpression orderly _)
    case h_17 => exact anew lays_superExpression
    case h_18 => exact anew (lays_importExpression orderly _)
    case h_19 => exact anew (lays_newExpression orderly _ ih)
    case h_20 =>
      refine anew (.of_since fun s => .pass (silent_wouldRead _) fun _ => .ite ?_ (.last name))
      exact .last (lays_functionExpression orderly _)

theorem since_callStep (s : State) (e : Chained) :
    Since s [e.expr] (callStep r c s.lexeme.start e) fun next => [(next.getD e).expr] := by
  unfold callStep
  refine .pass (silent_eat _) fun isChain => .pass (silent_atAny _) fun _ => ?_
  refine .ite (.read (lays_typeArguments orderly _) fun types => ?_) (.give ?_)
  all_goals
    refine .pass (silent_at? _) fun _ => .ite
      (.read (lays_arguments orderly _) fun arguments => .spanned fun span => ?_)
      (.pass (silent_require _) fun _ => .drop (List.Sublist.cons_cons _ (List.nil_sublist _)))
    split
    -- Types that were taken for their own expression are those of the call.
    case h_1 callee types shape =>
      rw [shape]
      refine Ensures.pure fun s' taken => ?_
      obtain ⟨passage, covers⟩ := taken
      refine .nodeOf rfl (passage.opened.sublist ?_) covers
      exact (List.Sublist.refl (callee :: types)).append (List.sublist_append_right _ _)
    case h_2 => exact Since.around _ rfl rfl rfl (by simp [Expr.parts])

theorem lays_operandRule : Lays (operandRule r c) ([·]) := by
  unfold operandRule
  refine .of_start fun s => .read (lays_primary orderly _ _) fun head => ?_
  refine .goOn ([·.expr]) (.iterate ([·.expr]) (fun e => ?_) r.bound (⟨head, false⟩ : Chained))
    fun e => .ite (.node fun _ => ⟨rfl, rfl, rfl⟩) (.done rfl)
  refine .goOn _ (since_memberRest orderly c s true e) fun e => ?_
  refine .goOn _ (since_callStep orderly c s e) fun next => ?_
  cases next <;> exact .done rfl

omit orderly in
theorem silent_atMarkup : Silent atMarkup := silent_wouldRead _

theorem lays_updateExpression : Lays (updateExpression r c) ([·]) := by
  unfold updateExpression
  refine .of_start fun s => .pass (silent_atAny _) fun _ => .ite ?_ ?_
  · refine .pass silent_advance fun _ => .read (orderly.unary _) fun operand => ?_
    exact .pass (silent_require _) fun _ => .node fun _ => ⟨rfl, rfl, rfl⟩
  refine .pass silent_atMarkup fun _ => .ite (.last (orderly.markup _ _)) ?_
  refine .read (orderly.operand _) fun operand => .pass (silent_atAny _) fun _ => ?_
  refine .pass silent_onNewLine fun _ => .ite ?_ (.done rfl)
  exact .pass (silent_require _) fun _ => .pass silent_advance fun _ => .node fun _ => ⟨rfl, rfl, rfl⟩

theorem lays_unaryRule : Lays (unaryRule r c) ([·]) := by
  unfold unaryRule
  refine .of_start fun s => .pass (silent_eat _) fun _ => .ite ?_ ?_
  · exact .read (orderly.unary _) fun _ => .node fun _ => ⟨rfl, rfl, rfl⟩
  refine .pass (silent_atAny _) fun _ => .ite ?_ ?_
  · exact .pass silent_advance fun _ => .read (orderly.unary _) fun _ => .node fun _ => ⟨rfl, rfl, rfl⟩
  refine .pass (silent_at? _) fun _ => .ite ?_ (.last (lays_updateExpression orderly _))
  exact .pass silent_advance fun _ => .read (orderly.unary _) fun _ => .node fun _ => ⟨rfl, rfl, rfl⟩

theorem since_operatorStep (s : State) (least : Nat) (left : Expr) :
    Since s [left] (operatorStep r c s.lexeme.start least left) fun next => [next.getD left] := by
  unfold operatorStep
  refine .pass silent_joinAngle fun _ => .pass silent_token fun token => ?_
  split
  case h_1 => exact .done rfl
  case h_2 text _ =>
    split
    case h_1 => exact .done rfl
    case h_2 level _ =>
      refine .ite (.done rfl) (.ite ?_ ?_)
      · refine .pass silent_onNewLine fun _ => .ite (.done rfl) (.pass silent_advance fun _ => ?_)
        refine .read (orderly.type _) fun types => ?_
        exact .nodeIn (Expr.ascription · left types) fun _ => ⟨rfl, rfl, rfl, rfl⟩
      refine .pass (silent_require _) fun _ => .pass silent_advance fun _ => ?_
      refine .read (orderly.binary _ _) fun right => .spanned fun span => ?_
      split
      · refine Ensures.bind (.look (still_require _)) fun _ => ?_
        exact Since.around (.logical span true left right) rfl rfl rfl (.refl _)
      split
      · exact Since.around (.logical span false left right) rfl rfl rfl (.refl _)
      · exact Since.around (.other span [left, right]) rfl rfl rfl (.refl _)

theorem lays_binaryRule (least : Nat) : Lays (binaryRule r c least) ([·]) := by
  unfold binaryRule
  refine .of_start fun s => .pass silent_token fun _ => .ite ?_ ?_
  · refine .pass silent_advance fun _ => .pass (silent_expect _) fun _ => ?_
    exact .read (orderly.binary _ _) fun _ => .node fun _ => ⟨rfl, rfl, rfl⟩
  refine .read (orderly.unary _) fun left => .iterate ([·]) (fun left => ?_) r.bound left
  refine .goOn _ (since_operatorStep orderly c s least left) fun next => ?_
  cases next <;> exact .done rfl

theorem lays_yieldExpression : Lays (yieldExpression r c) ([·]) := by
  unfold yieldExpression
  refine .of_start fun s => .pass (silent_expect _) fun _ => .pass silent_onNewLine fun _ => ?_
  refine .ite (.node fun _ => ⟨rfl, rfl, rfl⟩) (.pass (silent_eat _) fun _ => ?_)
  refine .pass (silent_atAny _) fun _ => .pass silent_token fun _ => ?_
  refine .ite (.node fun _ => ⟨rfl, rfl, rfl⟩) ?_
  exact .read (lays_value orderly _) fun _ => .node fun _ => ⟨rfl, rfl, rfl⟩

theorem since_conditionalRest (s : State) (condition : Expr) (allowsResult : Bool) :
    Since s [condition] (conditionalRest r c s.lexeme.start condition allowsResult) ([·]) := by
  unfold conditionalRest
  refine .pass (silent_eat _) fun _ => .ite ?_ (.done rfl)
  refine .read (orderly.assignment _ _) fun _ => .pass (silent_expect _) fun _ => ?_
  exact .read (orderly.assignment _ _) fun _ => .node fun _ => ⟨rfl, rfl, rfl⟩

theorem since_assignmentRest (s : State) (left : Expr) (allowsResult : Bool) :
    Since s [left] (assignmentRest r c s.lexeme.start left allowsResult) ([·]) := by
  unfold assignmentRest
  refine .pass (silent_at? _) fun isArrow => ?_
  split
  case h_1 =>
    -- The name in front of an arrow is not kept.
    refine .pass silent_arrow fun _ => .read (lays_arrowBody orderly _ _ _) fun body => ?_
    exact .spanned fun span => Since.around (.function span body) rfl rfl rfl
      (List.sublist_append_right _ _)
  case h_2 =>
    refine .pass (silent_at? _) fun _ => .ite ?_ (.pass (silent_atAny _) fun _ => .ite ?_ ?_)
    · split
      case h_1 => exact .fail
      case h_2 =>
        refine .pass (silent_settleWaiting _) fun _ => .pass silent_advance fun _ => ?_
        exact .read (orderly.assignment _ _) fun _ => .node fun _ => ⟨rfl, rfl, rfl⟩
    · refine .pass (silent_require _) fun _ => .pass silent_advance fun _ => ?_
      exact .read (orderly.assignment _ _) fun _ => .node fun _ => ⟨rfl, rfl, rfl⟩
    · exact since_conditionalRest orderly c s left allowsResult

theorem lays_assignmentRule (allowsResult : Bool) :
    Lays (assignmentRule r c allowsResult) ([·]) := by
  unfold assignmentRule
  refine .of_since fun s => .pass (silent_at? _) fun _ => .ite ?_ ?_
  · exact .last (lays_yieldExpression orderly _)
  refine .read (lays_arrowFunction? orderly _ _) fun found => ?_
  cases found with
  | some e => exact .done rfl
  | none =>
    have rest : Lays (do
        let start ← start
        let left ← r.binary c 0
        assignmentRest r c start left allowsResult) ([·]) :=
      .of_start fun s => .read (orderly.binary _ _) fun left =>
        since_assignmentRest orderly c s left allowsResult
    exact .last rest

theorem lays_commaRule : Lays (commaRule r c) ([·]) := by
  have next (c : Context) : Lays (do advance; r.value c) ([·]) :=
    .of_since fun s => .pass silent_advance fun _ => .last (lays_value orderly _)
  unfold commaRule
  refine .of_start fun s => .read (lays_value orderly _) fun first => ?_
  refine .read (lays_collectWhile _ (silent_at? _) (next _)) fun more => ?_
  cases more with
  | nil => exact .done rfl
  | cons second more => exact .node fun _ => ⟨rfl, rfl, by simp [Expr.parts]⟩

end DesignLink.Script.Grammar
