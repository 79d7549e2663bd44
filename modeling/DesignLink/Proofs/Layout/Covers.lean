import DesignLink.Proofs.Script.Enclosed

/-!
The span of an expression: from the token where its rule starts to the end of the last token that
the rule takes. This holds of every rule for expressions if it holds of those that it leads back to.
-/

namespace DesignLink.Script

namespace Parser

variable {α β : Type} {from_ : Nat}

/-- An expression spans the text from an offset to the end of the last token. -/
def Covers (from_ : Nat) (e : Expr) (s : State) : Prop := e.span = ⟨from_, s.previous⟩

/-- The parser gives an expression of all that was taken since an offset. -/
def Makes (from_ : Nat) (p : Parser Expr) : Prop := Ensures (fun _ => True) p (Covers from_)

/-- The parser gives an expression of all that it takes. -/
def Spans (p : Parser Expr) : Prop := ∀ ⦃s e s'⦄, p s = some (e, s') → Covers s.lexeme.start e s'

theorem Ensures.anywhere {before : State → Prop} {after : β → State → Prop} {p : Parser α}
    {next : α → Parser β} (last : ∀ a, Ensures (fun _ => True) (next a) after) :
    Ensures before (p >>= next) after :=
  have first : Ensures before p fun _ _ => True := fun _ _ _ _ _ => True.intro
  first.bind last

namespace Makes

theorem bind {p : Parser α} {next : α → Parser Expr} (last : ∀ a, Makes from_ (next a)) :
    Makes from_ (p >>= next) := Ensures.anywhere last

theorem fail : Makes from_ Parser.fail := Ensures.fail

theorem ite {condition : Prop} [Decidable condition] {p q : Parser Expr} (yes : Makes from_ p)
    (no : Makes from_ q) : Makes from_ (if condition then p else q) := Ensures.ite yes no

theorem node {make : Span → Expr} (spans : ∀ span, (make span).span = span) :
    Makes from_ (spanFrom from_ >>= fun span => pure (make span)) := by
  rintro s - e s' run
  cases run
  exact spans _

theorem anyhow {before : State → Prop} {p : Parser Expr} (makes : Makes from_ p) :
    Ensures before p (Covers from_) := fun _ _ _ _ run => makes True.intro run

end Makes

theorem Spans.of_start {next : Nat → Parser Expr} (makes : ∀ from_, Makes from_ (next from_)) :
    Spans (start >>= next) := fun _ _ _ run => makes _ True.intro run

theorem Spans.of_here {next : Nat → Parser Expr}
    (covers : ∀ s : State, Ensures (· = s) (next s.lexeme.start) (Covers s.lexeme.start)) :
    Spans (start >>= next) := fun s _ _ run => covers s rfl run

theorem Spans.of_ensures {p : Parser Expr}
    (covers : ∀ s : State, Ensures (· = s) p (Covers s.lexeme.start)) : Spans p :=
  fun s _ _ run => covers s rfl run

theorem Spans.at {p : Parser Expr} (spans : Spans p) (s : State) :
    Ensures (· = s) p (Covers s.lexeme.start) := by
  rintro _ rfl e s' run
  exact spans run

variable {before : State → Prop} {after : β → State → Prop}

/-- What does not depend on a mark that may come next goes on where it stood if there is none. -/
theorem Ensures.eaten {text : String} {yes no : Parser β}
    (taken : Ensures (fun _ => True) yes after) (left : Ensures before no after) :
    Ensures before (eat text >>= fun found => if found then yes else no) after := by
  intro s holds b s' run
  obtain ⟨found, middle, ate, rest⟩ := run_of_bind run
  rcases eat_eq_some ate with ⟨rfl, -, -⟩ | ⟨rfl, -, rfl⟩
  · exact taken True.intro rest
  · exact left holds rest

theorem Ensures.tried {p : Parser α} {next : Option α → Parser β}
    (found : ∀ a, Ensures (fun _ => True) (next (some a)) after)
    (back : Ensures before (next none) after) : Ensures before (attempt p >>= next) after := by
  intro s holds b s' run
  obtain ⟨result, middle, ran, rest⟩ := run_of_bind run
  unfold attempt at ran
  split at ran <;> cases ran
  case h_1 a _ => exact found a True.intro rest
  case h_2 => exact back holds rest

end Parser

open DesignLink.Script.Parser

structure Rules.Spanning (r : Rules) : Prop where
  comma : ∀ c, Spans (r.comma c)
  assignment : ∀ c allowsResult, Spans (r.assignment c allowsResult)
  binary : ∀ c least, Spans (r.binary c least)
  unary : ∀ c, Spans (r.unary c)
  operand : ∀ c, Spans (r.operand c)
  markup : ∀ c isInside, Spans (r.markup c isInside)

namespace Grammar

variable {r : Rules} {c : Context} {from_ : Nat}

/-! Operands. -/

theorem spans_functionExpression : Spans (functionExpression r c) :=
  .of_start fun _ => .bind fun _ => .node fun _ => rfl

theorem spans_classExpression : Spans (classExpression r c) :=
  .of_start fun _ => .bind fun _ => .bind fun _ => .node fun _ => rfl

theorem spans_superExpression : Spans superExpression :=
  .of_start fun _ => .bind fun _ => .bind fun _ => .bind fun _ => .node fun _ => rfl

theorem spans_groupExpression : Spans (groupExpression r c) :=
  .of_start fun _ => .bind fun _ => .bind fun _ => .bind fun _ => .node fun _ => rfl

theorem spans_arrayLiteral : Spans (arrayLiteral r c) :=
  .of_start fun _ => .bind fun _ => .bind fun _ => .bind fun _ => .node fun _ => rfl

theorem spans_objectLiteral : Spans (objectLiteral r c) :=
  .of_start fun _ => .bind fun _ => .bind fun _ => .bind fun _ => .node fun _ => rfl

theorem spans_single {make : Span → Expr} (spans : ∀ span, (make span).span = span) :
    Spans (single make) :=
  .of_start fun _ => .bind fun _ => .node spans

theorem spans_importExpression : Spans (importExpression r c) := by
  refine .of_start fun _ => .bind fun _ => .bind fun _ => .ite
    (.bind fun _ => .ite (.node fun _ => rfl) (.bind fun _ => ?_)) ?_
  all_goals
    refine .bind fun _ => .bind fun _ => .bind fun _ => .ite (.bind fun _ => .ite ?_ ?_) ?_
    case refine_1 => exact .bind fun _ => .bind fun _ => .node fun _ => rfl
    case refine_2 =>
      iterate 4 refine .bind fun _ => ?_
      exact .node fun _ => rfl
    case refine_3 => exact .bind fun _ => .bind fun _ => .node fun _ => rfl

theorem spans_regularExpression : Spans regularExpression := by
  unfold regularExpression
  refine .of_ensures fun s => .of_lexeme ?_
  split
  case h_1 => exact .fail
  case h_2 =>
    split
    case h_1 => exact .fail
    case h_2 =>
      rintro _ rfl e s' run
      cases run
      rfl

theorem spans_newExpression {operand : Parser Expr} : Spans (newExpression r c operand) := by
  refine .of_start fun _ => .bind fun _ => .bind fun _ => .ite ?_ ?_
  · exact .bind fun _ => .node fun _ => rfl
  · iterate 6 refine .bind fun _ => ?_
    refine .ite (.bind fun _ => ?_) (.bind fun _ => ?_)
    all_goals
      iterate 2 refine .bind fun _ => ?_
      exact .node fun _ => rfl

theorem spans_primary (depth : Nat) : Spans (primary r c depth) := by
  induction depth with
  | zero => exact fun _ _ _ run => by cases run
  | succ depth ih =>
    have name : Spans (do
        let start ← start
        let text ← name c
        return .identifier (← spanFrom start) text) :=
      .of_start fun _ => .bind fun _ => .node fun _ => rfl
    have template : Spans (do
        let start ← start
        let parts ← template r c false
        return .template (← spanFrom start) parts) :=
      .of_start fun _ => .bind fun _ => .node fun _ => rfl
    unfold primary
    refine .of_ensures fun s => Ensures.bind (.look still_token) fun token => ?_
    split
    case h_1 | h_2 | h_3 | h_11 | h_12 | h_13 | h_14 =>
      exact (spans_single fun _ => rfl).at s
    case h_4 => exact template.at s
    case h_5 => exact spans_groupExpression.at s
    case h_6 => exact spans_arrayLiteral.at s
    case h_7 => exact spans_objectLiteral.at s
    case h_8 | h_9 => exact spans_regularExpression.at s
    case h_10 | h_16 => exact spans_classExpression.at s
    case h_15 => exact spans_functionExpression.at s
    case h_17 => exact spans_superExpression.at s
    case h_18 => exact spans_importExpression.at s
    case h_19 => exact spans_newExpression.at s
    case h_20 =>
      refine Ensures.bind (.look (still_wouldRead _)) fun _ => .ite ?_ (name.at s)
      exact spans_functionExpression.at s

/-! Members and calls behind an operand. -/

theorem makes_bracketMember {object : Expr} : Makes from_ (bracketMember r c from_ object) :=
  .bind fun _ => .bind fun _ => .bind fun _ => .node fun _ => rfl

theorem makes_namedMember {object : Expr} : Makes from_ (namedMember from_ object) := by
  refine .bind fun token => ?_
  split
  · exact .bind fun _ => .node fun _ => rfl
  · exact .bind fun _ => .node fun _ => rfl

theorem ensures_memberStep {allowsChain : Bool} {chained : Chained} :
    Ensures (Covers from_ chained.expr) (memberStep r c from_ allowsChain chained)
      fun next => Covers from_ (next.getD chained).expr := by
  have kept {before : State → Prop} (covers : ∀ s, before s → Covers from_ chained.expr s) :
      Ensures before (pure none : Parser (Option Chained))
        fun next => Covers from_ (next.getD chained).expr := .pure covers
  have member (isChain : Bool) {p : Parser Expr} (makes : Makes from_ p) {before : State → Prop} :
      Ensures before (do return some ⟨← p, isChain⟩ : Parser (Option Chained))
        fun next => Covers from_ (next.getD chained).expr :=
    makes.anyhow.bind fun e => .pure fun _ covers => covers
  have advanced : Ensures (Covers from_ chained.expr) advance fun _ _ => True :=
    fun _ _ _ _ _ => True.intro
  unfold memberStep
  refine Ensures.bind (.look still_token) fun token => ?_
  split
  case h_1 => exact .ite (kept fun _ covers => covers) (member _ makes_bracketMember)
  case h_2 => exact advanced.bind fun _ => member _ makes_namedMember
  case h_3 =>
    refine .ite (kept fun _ covers => covers) ?_
    refine Ensures.bind (.look (still_wouldRead _)) fun _ => ?_
    refine Ensures.bind (.look (still_wouldRead _)) fun _ => ?_
    refine .ite (kept fun _ covers => covers) (advanced.bind fun _ => ?_)
    exact .ite (member _ makes_bracketMember) (member _ makes_namedMember)
  case h_4 =>
    refine Ensures.bind (.look still_onNewLine) fun _ => ?_
    refine .ite (kept fun _ covers => covers) (advanced.bind fun _ => ?_)
    rintro s - next s' run
    cases run
    rfl
  case h_5 =>
    refine Ensures.bind (.look (still_require _)) fun _ => ?_
    rintro s - next s' run
    obtain ⟨parts, _, -, made⟩ := run_of_bind run
    cases made
    rfl
  case h_6 | h_7 =>
    refine .tried (fun types => ?_) (kept fun _ covers => covers)
    rintro s - next s' run
    cases run
    rfl
  case h_8 => exact kept fun _ covers => covers

theorem ensures_memberRest {allowsChain : Bool} {chained : Chained} :
    Ensures (Covers from_ chained.expr) (memberRest r c from_ allowsChain chained)
      fun next => Covers from_ next.expr := by
  unfold memberRest
  refine .iterate (fun (chained : Chained) => Covers from_ chained.expr) (fun chained => ?_) _ _
  refine ensures_memberStep.bind fun next => ?_
  cases next <;> exact .pure fun _ covers => covers

theorem ensures_callStep {chained : Chained} :
    Ensures (Covers from_ chained.expr) (callStep r c from_ chained)
      fun next => Covers from_ (next.getD chained).expr := by
  have call {isChain : Bool} {build : List Item → Span → Parser (Option Chained)}
      (builds : ∀ arguments span, Ensures (fun s => span = ⟨from_, s.previous⟩)
        (build arguments span) fun next => Covers from_ (next.getD chained).expr)
      {before : State → Prop}
      (kept : isChain = false → ∀ s, before s → Covers from_ chained.expr s) :
      Ensures before (do
        if ← at? "(" then
          let arguments ← arguments r c
          let span ← spanFrom from_
          build arguments span
        else
          require !isChain
          return none) fun next => Covers from_ (next.getD chained).expr := by
    refine Ensures.bind (.look (still_at? _)) fun _ => .ite ?_ ?_
    · refine .anywhere fun _ => ?_
      have spanned : Ensures (fun _ => True) (spanFrom from_) fun span s =>
          span = ⟨from_, s.previous⟩ := by
        rintro s - span s' run
        cases run
        rfl
      exact spanned.bind fun span => builds _ span
    · intro s holds next s' run
      obtain ⟨_, _, required, done⟩ := run_of_bind run
      cases isChain <;> cases required
      cases done
      exact kept rfl s holds
  unfold callStep
  intro s covers next s' run
  obtain ⟨isChain, middle, ate, rest⟩ := run_of_bind run
  obtain ⟨angle, _, looked, rest⟩ := run_of_bind rest
  cases still_atAny _ looked
  have kept : isChain = false → ∀ s, s = middle → Covers from_ chained.expr s := by
    rintro rfl _ rfl
    rcases eat_eq_some ate with ⟨same, -, -⟩ | ⟨-, -, rfl⟩
    · cases same
    · exact covers
  by_cases both : (isChain && angle) = true
  · rw [if_pos both] at rest
    obtain ⟨types, behind, -, rest⟩ := run_of_bind rest
    have taken : isChain = false → ∀ s, True → Covers from_ chained.expr s := by
      rintro rfl
      cases both
    refine call (fun arguments span => ?_) taken True.intro rest
    split <;> exact .pure fun _ spans => spans
  · rw [if_neg both] at rest
    refine call (fun arguments span => ?_) kept rfl rest
    split <;> exact .pure fun _ spans => spans

theorem spans_operandRule : Spans (operandRule r c) := by
  refine .of_here fun s => ?_
  refine ((spans_primary _).at s).bind fun head => ?_
  refine .bind (.iterate (fun (e : Chained) => Covers s.lexeme.start e.expr) (fun _ => ?_) _
    ⟨head, false⟩) fun e => .ite (Makes.node fun _ => rfl).anyhow (.pure fun _ covers => covers)
  refine ensures_memberRest.bind fun e => ensures_callStep.bind fun next => ?_
  cases next <;> exact .pure fun _ covers => covers

/-! Markup. -/

/-- The end of an element is the end of the last token taken. -/
def StopsAt (p : Parser Nat) : Prop := Ensures (fun _ => True) p fun stop s => s.previous = stop

theorem stopsAt_closeMarkup (isInside : Bool) : StopsAt (closeMarkup isInside) := by
  have moved (s : State) : Ensures (· = s) (endMarkup isInside ">") fun _ s' =>
      s'.previous = s.lexeme.stop := by
    unfold endMarkup
    refine Ensures.bind (.look (still_at? _)) fun _ => ?_
    refine Ensures.bind (.look (still_require _)) fun _ => .ite ?_ ?_
    · unfold toNextChild
      refine .of_lexeme (Ensures.bind (.look (still_require _)) fun _ => ?_)
      dsimp only
      split
      case h_3 => exact .fail
      case h_1 | h_2 =>
        rintro _ rfl _ s' run
        cases run
        rfl
    · rintro _ rfl _ s' run
      unfold advance at run
      split at run <;> cases run
      rfl
  rintro s - stop s' run
  obtain ⟨l, _, looked, rest⟩ := run_of_bind run
  cases looked
  obtain ⟨_, middle, ended, done⟩ := run_of_bind rest
  cases done
  exact moved s rfl ended

theorem StopsAt.bind {α : Type} {p : Parser α} {next : α → Parser Nat}
    (last : ∀ a, StopsAt (next a)) : StopsAt (p >>= next) :=
  Ensures.anywhere last

theorem StopsAt.element {p : Parser Nat} (stops : StopsAt p) (parts : List Expr) :
    Makes from_ (p >>= fun stop => pure (.markup ⟨from_, stop⟩ parts)) :=
  Ensures.bind stops fun stop => .pure fun s ends => by rw [Covers, Expr.span, ends]

theorem stopsAt_closingPart (isInside : Bool) (closingName : Parser Unit) :
    StopsAt (closingPart isInside closingName) :=
  .bind fun _ => .bind fun _ => .bind fun _ => stopsAt_closeMarkup isInside

theorem spans_markupRule (isInside : Bool) : Spans (markupRule r c isInside) := by
  refine .of_start fun _ => .bind fun _ => .bind fun _ => .ite ?_ ?_
  · exact .bind fun _ => .bind fun _ => (stopsAt_closingPart _ _).element _
  refine .bind fun _ => .bind fun _ => .ite (.bind fun _ => ?_) (.bind fun _ => ?_)
  all_goals
    refine .bind fun _ => .bind fun _ => .ite ((stopsAt_closeMarkup _).element _) ?_
    iterate 4 refine .bind fun _ => ?_
    exact (stopsAt_closingPart _ _).element _

/-! Arrow functions. -/

theorem spans_parenthesizedArrow {allowsResult : Bool} :
    Spans (parenthesizedArrow r c allowsResult) := by
  refine .of_start fun _ => ?_
  iterate 9 refine .bind fun _ => ?_
  exact .node fun _ => rfl

theorem spans_asyncArrow {allowsResult : Bool} : Spans (asyncArrow r c allowsResult) := by
  refine .of_start fun _ => ?_
  iterate 8 refine .bind fun _ => ?_
  exact .node fun _ => rfl

theorem ensures_arrowFunction? {allowsResult : Bool} (s : State) :
    Ensures (· = s) (arrowFunction? r c allowsResult) fun found s' =>
      (∀ e, found = some e → Covers s.lexeme.start e s') ∧ (found = none → s' = s) := by
  have nothing : Ensures (· = s) (pure none : Parser (Option Expr)) fun found s' =>
      (∀ e, found = some e → Covers s.lexeme.start e s') ∧ (found = none → s' = s) :=
    .pure fun _ same => ⟨nofun, fun _ => same⟩
  have tried {p : Parser Expr} (spans : Spans p) : Ensures (· = s) (attempt p) fun found s' =>
      (∀ e, found = some e → Covers s.lexeme.start e s') ∧ (found = none → s' = s) := by
    rintro _ rfl found s' run
    unfold attempt at run
    split at run <;> cases run
    case h_1 ran => exact ⟨fun e same => Option.some.inj same ▸ spans ran, nofun⟩
    case h_2 => exact ⟨nofun, fun _ => rfl⟩
  unfold arrowFunction?
  refine Ensures.bind (.look (still_atAny _)) fun _ => .ite ?_ nothing
  refine Ensures.bind (.look still_guessArrow) fun guess => ?_
  cases guess with
  | yes =>
    refine (spans_parenthesizedArrow.at s).bind fun e => .pure fun _ covers => ⟨?_, nofun⟩
    rintro _ ⟨⟩
    exact covers
  | maybe => exact tried spans_parenthesizedArrow
  | no => exact Ensures.bind (.look (still_at? _)) fun _ => .ite (tried spans_asyncArrow) nothing

/-! Operators. -/

theorem previous_of_joinAngle {s s' : State} {found : Unit}
    (run : joinAngle s = some (found, s')) : s'.previous = s.previous := by
  unfold joinAngle at run
  split at run
  · split at run <;> cases run <;> rfl
  · cases run
    rfl

theorem ensures_operatorStep {least : Nat} {left : Expr} :
    Ensures (Covers from_ left) (operatorStep r c from_ least left)
      fun next => Covers from_ (next.getD left) := by
  have joined : Ensures (Covers from_ left) joinAngle fun _ => Covers from_ left := by
    intro s covers _ s' run
    rw [Covers, previous_of_joinAngle run]
    exact covers
  have kept {before : State → Prop} (covers : ∀ s, before s → Covers from_ left s) :
      Ensures before (pure none : Parser (Option Expr)) fun next => Covers from_ (next.getD left) :=
    .pure covers
  unfold operatorStep
  refine joined.bind fun _ => Ensures.bind (.look still_token) fun token => ?_
  split
  case h_1 => exact kept fun _ covers => covers
  case h_2 text _ =>
    split
    case h_1 => exact kept fun _ covers => covers
    case h_2 level _ =>
      refine .ite (kept fun _ covers => covers) (.ite ?_ ?_)
      · refine Ensures.bind (.look still_onNewLine) fun _ => .ite (kept fun _ covers => covers) ?_
        rintro s - next s' run
        obtain ⟨_, _, -, rest⟩ := run_of_bind run
        obtain ⟨types, _, -, made⟩ := run_of_bind rest
        cases made
        rfl
      · rintro s - next s' run
        obtain ⟨_, _, -, rest⟩ := run_of_bind run
        obtain ⟨_, _, -, rest⟩ := run_of_bind rest
        obtain ⟨right, middle, -, rest⟩ := run_of_bind rest
        obtain ⟨span, _, spanned, made⟩ := run_of_bind rest
        cases spanned
        split at made
        · obtain ⟨_, _, required, made⟩ := run_of_bind made
          cases still_require _ required
          cases made
          rfl
        · split at made <;> cases made <;> rfl

theorem spans_yieldExpression : Spans (yieldExpression r c) := by
  refine .of_start fun _ => .bind fun _ => .bind fun _ => .ite (.node fun _ => rfl) ?_
  refine .bind fun _ => .bind fun _ => .bind fun _ => .ite (.node fun _ => rfl) ?_
  exact .bind fun _ => .node fun _ => rfl

theorem ensures_conditionalRest {condition : Expr} {allowsResult : Bool} :
    Ensures (Covers from_ condition) (conditionalRest r c from_ condition allowsResult)
      (Covers from_) :=
  .eaten (Makes.bind fun _ => .bind fun _ => .bind fun _ => .node fun _ => rfl).anyhow
    (.pure fun _ covers => covers)

theorem ensures_assignmentRest {left : Expr} {allowsResult : Bool} :
    Ensures (Covers from_ left) (assignmentRest r c from_ left allowsResult) (Covers from_) := by
  refine Ensures.bind (.look (still_at? _)) fun isArrow => ?_
  split
  case h_1 => exact (Makes.bind fun _ => .bind fun _ => .node fun _ => rfl).anyhow
  case h_2 =>
    refine Ensures.bind (.look (still_at? _)) fun _ => .ite ?_ ?_
    · split
      case h_1 => exact .fail
      case h_2 =>
        exact (Makes.bind fun _ => .bind fun _ => .bind fun _ => .node fun _ => rfl).anyhow
    refine Ensures.bind (.look (still_atAny _)) fun _ => .ite ?_ ensures_conditionalRest
    exact (Makes.bind fun _ => .bind fun _ => .bind fun _ => .node fun _ => rfl).anyhow

variable (spanning : r.Spanning)
include spanning

theorem spans_updateExpression : Spans (updateExpression r c) := by
  refine .of_here fun s => Ensures.bind (.look (still_atAny _)) fun _ => .ite ?_ ?_
  · exact (Makes.bind fun _ => .bind fun _ => .bind fun _ => .node fun _ => rfl).anyhow
  refine Ensures.bind (.look (still_wouldRead _)) fun _ => .ite ((spanning.markup _ _).at s) ?_
  refine ((spanning.operand _).at s).bind fun operand => ?_
  refine Ensures.bind (.look (still_atAny _)) fun _ => ?_
  refine Ensures.bind (.look still_onNewLine) fun _ => .ite ?_ (.pure fun _ covers => covers)
  exact (Makes.bind fun _ => .bind fun _ => .node fun _ => rfl).anyhow

theorem spans_unaryRule : Spans (unaryRule r c) := by
  refine .of_here fun s => Ensures.eaten ?_ ?_
  · exact (Makes.bind fun _ => .node fun _ => rfl).anyhow
  refine Ensures.bind (.look (still_atAny _)) fun _ => .ite ?_ ?_
  · exact (Makes.bind fun _ => .bind fun _ => .node fun _ => rfl).anyhow
  refine Ensures.bind (.look (still_at? _)) fun _ => .ite ?_ ?_
  · exact (Makes.bind fun _ => .bind fun _ => .node fun _ => rfl).anyhow
  · exact (spans_updateExpression spanning).at s

theorem spans_binaryRule {least : Nat} : Spans (binaryRule r c least) := by
  refine .of_here fun s => Ensures.bind (.look still_token) fun _ => .ite ?_ ?_
  · exact (Makes.bind fun _ => .bind fun _ => .bind fun _ => .node fun _ => rfl).anyhow
  refine ((spanning.unary _).at s).bind fun left => ?_
  refine .iterate (fun left => Covers s.lexeme.start left) (fun left => ?_) _ _
  refine ensures_operatorStep.bind fun next => ?_
  cases next <;> exact .pure fun _ covers => covers

theorem spans_assignmentRule {allowsResult : Bool} :
    Spans (assignmentRule r c allowsResult) := by
  refine .of_ensures fun s => Ensures.bind (.look (still_at? _)) fun _ => .ite ?_ ?_
  · exact spans_yieldExpression.at s
  refine (ensures_arrowFunction? s).bind fun found => ?_
  cases found with
  | some e => exact .pure fun _ holds => holds.1 e rfl
  | none =>
    have operands : Spans (do
        let start ← start
        let left ← r.binary c 0
        assignmentRest r c start left allowsResult) :=
      .of_here fun s => ((spanning.binary _ _).at s).bind fun _ => ensures_assignmentRest
    intro s' holds e s'' run
    exact operands.at s (holds.2 rfl) run

theorem spans_commaRule : Spans (commaRule r c) := by
  refine .of_here fun s => ((spanning.assignment _ _).at s).bind fun first => ?_
  intro s₁ covers e s' run
  obtain ⟨more, s₂, collected, rest⟩ := run_of_bind run
  cases collectRun_of_run (still_at? _) collected with
  | done last =>
    cases still_at? _ last
    cases rest
    exact covers
  | next =>
    cases rest
    rfl

omit spanning in
theorem spanning_rules (depth : Nat) : (rules depth).Spanning := by
  induction depth with
  | zero =>
    have fails : Spans (Parser.fail : Parser Expr) := fun _ _ _ run => by cases run
    exact ⟨fun _ => fails, fun _ _ => fails, fun _ _ => fails, fun _ => fails, fun _ => fails,
      fun _ _ => fails⟩
  | succ depth ih =>
    exact {
      comma := fun _ => spans_commaRule ih
      assignment := fun _ _ => spans_assignmentRule ih
      binary := fun _ _ => spans_binaryRule ih
      unary := fun _ => spans_unaryRule ih
      operand := fun _ => spans_operandRule
      markup := fun _ isInside => spans_markupRule isInside }

end Grammar

end DesignLink.Script
