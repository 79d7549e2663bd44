import DesignLink.Proofs.Layout.Passages
import DesignLink.Proofs.Script.Modules

/-!
What a text in parentheses can be read as. If the only expression of the module is a group, then it
is that of the parentheses: no rule makes a group or an object literal of anything but what its
operand rule read, so each step back from the module to the group is forced.
-/

namespace DesignLink.Script

def Expr.isEnclosed : Expr → Bool
  | .group _ _ | .object _ _ => true
  | _ => false

def Expr.IsLoose (e : Expr) : Prop := e.isEnclosed = false

/-- An operand on its way that is neither. -/
def Grammar.Chained.IsLoose (chained : Grammar.Chained) : Prop := chained.expr.IsLoose

namespace Parser

variable {α β : Type} {p : Parser α} {s s' : State}

/-- All results of a parser have a property. -/
def Returns (P : α → Prop) (p : Parser α) : Prop := ∀ ⦃s a s'⦄, p s = some (a, s') → P a

namespace Returns

variable {P : α → Prop} {Q : β → Prop}

theorem bind {next : α → Parser β} (last : ∀ a, Returns Q (next a)) : Returns Q (p >>= next) := by
  intro s b s' run
  obtain ⟨a, middle, -, rest⟩ := run_of_bind run
  exact last a rest

theorem pure {a : α} (holds : P a) : Returns P (pure a : Parser α) := by
  rintro s _ s' ⟨⟩
  exact holds

theorem fail : Returns P (Parser.fail : Parser α) := by
  rintro s a s' ⟨⟩

theorem ite {condition : Prop} [Decidable condition] {q : Parser α} (yes : Returns P p)
    (no : Returns P q) : Returns P (if condition then p else q) := by
  split
  · exact yes
  · exact no

end Returns

/-- A loop that stops where it starts, or makes something with a property in a step, gives what it
started with or something with this property. -/
theorem loop_eq_some {P : α → Prop} {K : State → State → Prop} {step : α → Parser (α ⊕ α)}
    (goes : ∀ ⦃a s result s'⦄, step a s = some (result, s') →
      (result = .inr a ∧ K s s') ∨ P (result.elim id id)) :
    ∀ {bound : Nat} {a b : α} {s : State}, iterate step bound a s = some (b, s') →
      (b = a ∧ K s s') ∨ P b := by
  intro bound
  induction bound with
  | zero => rintro a b s ⟨⟩
  | succ bound ih =>
    intro a b s run
    obtain ⟨result, middle, ran, rest⟩ := run_of_bind run
    rcases goes ran with ⟨rfl, unmoved⟩ | holds
    · cases rest
      exact .inl ⟨rfl, unmoved⟩
    · cases result with
      | inl a' =>
        rcases ih rest with ⟨rfl, -⟩ | later
        · exact .inr holds
        · exact .inr later
      | inr b' =>
        cases rest
        exact .inr holds

theorem eat_eq_some {text : String} {found : Bool} (run : eat text s = some (found, s')) :
    (found = true ∧ plainText s.lexeme.token = some text ∧ advance s = some ((), s')) ∨
      (found = false ∧ plainText s.lexeme.token ≠ some text ∧ s' = s) := by
  rw [eat, bind_apply, at?, Option.bind_some] at run
  dsimp only at run
  split at run
  case isTrue here =>
    obtain ⟨_, middle, moved, done⟩ := run_of_bind run
    cases done
    exact .inl ⟨rfl, by simpa using here, moved⟩
  case isFalse notHere =>
    cases run
    exact .inr ⟨rfl, by simpa using notHere, rfl⟩

theorem collectRun_of_run {more : Parser Bool} (still : Still more) {bound : Nat}
    {as : List α} (run : collectWhile bound more p s = some (as, s')) :
    CollectRun more p s as s' := by
  have general : ∀ (bound : Nat) (found : List α) (s : State),
      iterate (fun found => do
        if ← more then
          let next ← p
          return .inl (next :: found)
        else return .inr found.reverse) bound found s = some (as, s') →
      ∃ later, as = found.reverse ++ later ∧ CollectRun more p s later s' := by
    intro bound
    induction bound with
    | zero => rintro found s ⟨⟩
    | succ bound ih =>
      intro found s run
      obtain ⟨result, middle, step, rest⟩ := run_of_bind run
      obtain ⟨goesOn, _, looked, chosen⟩ := run_of_bind step
      cases still looked
      cases goesOn with
      | false =>
        cases chosen
        cases rest
        exact ⟨[], (List.append_nil _).symm, .done looked⟩
      | true =>
        obtain ⟨a, middle, read, given⟩ := run_of_bind chosen
        cases given
        obtain ⟨later, same, run⟩ := ih _ _ rest
        exact ⟨a :: later, by simpa using same, .next looked read run⟩
  obtain ⟨later, same, run⟩ := general bound [] s run
  exact same ▸ run

def Found (P : α → Prop) (found : Option α) : Prop := ∃ a, found = some a ∧ P a

/-- What a parser finds has a property, and where it finds nothing it does not move. -/
def Finds (P : α → Prop) (p : Parser (Option α)) : Prop :=
  ∀ ⦃s found s'⦄, p s = some (found, s') → (found = none ∧ s' = s) ∨ Found P found

namespace Finds

variable {P : α → Prop} {q : Parser (Option α)}

theorem nothing : Finds P (pure none) := by
  rintro s _ s' ⟨⟩
  exact .inl ⟨rfl, rfl⟩

theorem of_returns (returns : Returns (Found P) q) : Finds P q :=
  fun _ _ _ run => .inr (returns run)

theorem look {look : Parser β} {next : β → Parser (Option α)} (still : Still look)
    (goes : ∀ b, Finds P (next b)) : Finds P (look >>= next) := by
  intro s found s' run
  obtain ⟨b, _, looked, rest⟩ := run_of_bind run
  cases still looked
  exact goes b rest

theorem ite {condition : Prop} [Decidable condition] {q' : Parser (Option α)} (yes : Finds P q)
    (no : Finds P q') : Finds P (if condition then q else q') := by
  split
  · exact yes
  · exact no

theorem tried {tried : Parser β} {next : Option β → Parser (Option α)}
    (used : ∀ b, Returns (Found P) (next (some b)))
    (back : Finds P (next none)) : Finds P (Parser.attempt tried >>= next) := by
  intro s found s' run
  obtain ⟨result, middle, ran, rest⟩ := run_of_bind run
  unfold Parser.attempt at ran
  split at ran <;> cases ran
  case h_1 b _ => exact .inr (used b rest)
  case h_2 => exact back rest

theorem attempt (returns : Returns P p) : Finds P (attempt p) := by
  intro s found s' run
  unfold Parser.attempt at run
  split at run <;> cases run
  case h_1 a ran => exact .inr ⟨a, rfl, returns ran⟩
  case h_2 => exact .inl ⟨rfl, rfl⟩

end Finds

end Parser

namespace Grammar

open DesignLink.Script.Parser

variable {r : Rules} {c : Context} {s s' : State} {e : Expr} {allowsResult : Bool}

/-! Arrow functions. -/

theorem returns_parenthesizedArrow :
    Returns Expr.IsLoose (parenthesizedArrow r c allowsResult) := by
  unfold parenthesizedArrow
  iterate 11 refine .bind fun _ => ?_
  exact .pure rfl

theorem returns_asyncArrow : Returns Expr.IsLoose (asyncArrow r c allowsResult) := by
  unfold asyncArrow
  iterate 10 refine .bind fun _ => ?_
  exact .pure rfl

theorem still_guessArrow : Still (guessArrow c) := by
  intro s guess s' run
  obtain ⟨_, _, peeked, same⟩ := run_of_bind run
  cases still_peek _ peeked
  cases same
  rfl

theorem finds_arrowFunction? :
    Finds Expr.IsLoose (arrowFunction? r c allowsResult) := by
  unfold arrowFunction?
  refine .look (still_atAny _) fun _ => .ite (.look still_guessArrow fun guess => ?_) .nothing
  cases guess with
  | yes =>
    refine .of_returns fun s found s' run => ?_
    obtain ⟨e, _, ran, same⟩ := run_of_bind run
    cases same
    exact ⟨e, rfl, returns_parenthesizedArrow ran⟩
  | maybe => exact .attempt returns_parenthesizedArrow
  | no => exact .look (still_at? _) fun _ => .ite (.attempt returns_asyncArrow) .nothing

/-! Back through the rules. -/

theorem commaRule_eq_some (run : commaRule r c s = some (e, s')) :
    r.value { c with decorates := false } s = some (e, s') ∨
      ∃ span parts, e = .other span parts := by
  obtain ⟨_, _, started, run⟩ := run_of_bind run
  cases started
  obtain ⟨first, middle, read, run⟩ := run_of_bind run
  obtain ⟨more, _, collected, run⟩ := run_of_bind run
  cases collectRun_of_run (still_at? _) collected with
  | done last =>
    cases run
    cases still_at? _ last
    exact .inl read
  | next =>
    obtain ⟨span, _, spanned, done⟩ := run_of_bind run
    cases done
    exact .inr ⟨span, _, rfl⟩

theorem value_of_commaRule (run : commaRule r c s = some (e, s')) (enclosed : e.isEnclosed = true) :
    r.value { c with decorates := false } s = some (e, s') := by
  rcases commaRule_eq_some run with value | ⟨span, parts, rfl⟩
  · exact value
  · cases enclosed

theorem conditionalRest_eq_some {start : Nat} {condition : Expr}
    (run : conditionalRest r c start condition allowsResult s = some (e, s'))
    (enclosed : e.isEnclosed = true) : e = condition ∧ s' = s := by
  obtain ⟨asks, middle, eaten, rest⟩ := run_of_bind run
  rcases eat_eq_some eaten with ⟨rfl, -, -⟩ | ⟨rfl, -, rfl⟩
  · have other : Returns Expr.IsLoose (do
        let yes ← r.assignment { c with allowsIn := true } false
        expect ":"
        let no ← r.assignment c allowsResult
        return Expr.other (← spanFrom start) [condition, yes, no]) := by
      iterate 4 refine .bind fun _ => ?_
      exact .pure rfl
    cases enclosed.symm.trans (other rest)
  · cases rest
    exact ⟨rfl, rfl⟩

theorem assignmentRest_eq_some {start : Nat} {left : Expr}
    (run : assignmentRest r c start left allowsResult s = some (e, s'))
    (enclosed : e.isEnclosed = true) : e = left ∧ s' = s := by
  have change (plain : Bool) : Returns Expr.IsLoose (do
      advance
      let value ← r.assignment c allowsResult
      return Expr.assignment (← spanFrom start) plain left value) := by
    iterate 3 refine .bind fun _ => ?_
    exact .pure rfl
  obtain ⟨points, _, looked, rest⟩ := run_of_bind run
  cases still_at? _ looked
  split at rest
  case h_1 =>
    have function : Returns Expr.IsLoose (do
        arrow
        let body ← arrowBody r c false allowsResult
        return Expr.function (← spanFrom start) body) := by
      iterate 3 refine .bind fun _ => ?_
      exact .pure rfl
    cases enclosed.symm.trans (function rest)
  case h_2 =>
    obtain ⟨equals, _, looked, rest⟩ := run_of_bind rest
    cases still_at? _ looked
    split at rest
    case isTrue =>
      cases pattern : left.asPattern? with
      | none =>
        rw [pattern] at rest
        cases rest
      | some settled =>
        rw [pattern] at rest
        cases enclosed.symm.trans ((Returns.bind fun _ => change true) rest)
    case isFalse =>
      obtain ⟨changes, _, looked, rest⟩ := run_of_bind rest
      cases still_atAny _ looked
      split at rest
      case isTrue => cases enclosed.symm.trans ((Returns.bind fun _ => change false) rest)
      case isFalse => exact conditionalRest_eq_some rest enclosed

theorem binary_of_assignmentRule (plain : c.yields = false)
    (run : assignmentRule r c allowsResult s = some (e, s')) (enclosed : e.isEnclosed = true) :
    arrowFunction? r c allowsResult s = some (none, s) ∧ r.binary c 0 s = some (e, s') := by
  obtain ⟨yields, _, looked, rest⟩ := run_of_bind run
  cases still_at? _ looked
  rw [plain, Bool.false_and, if_neg Bool.false_ne_true] at rest
  obtain ⟨found, middle, ran, chosen⟩ := run_of_bind rest
  rcases finds_arrowFunction? ran with ⟨rfl, rfl⟩ | ⟨function, rfl, loose⟩
  · obtain ⟨_, _, started, operands⟩ := run_of_bind chosen
    cases started
    obtain ⟨left, behind, read, last⟩ := run_of_bind operands
    obtain ⟨rfl, rfl⟩ := assignmentRest_eq_some last enclosed
    exact ⟨ran, read⟩
  · cases chosen
    cases enclosed.symm.trans loose

def JoinsAngle (s s' : State) : Prop :=
  s' = s ∨ ∃ text ∈ Token.angleMarks, s'.lexeme.token = .mark text

theorem joinAngle_eq_some {found : Unit} (run : joinAngle s = some (found, s')) :
    JoinsAngle s s' := by
  unfold joinAngle at run
  split at run
  case h_1 =>
    split at run <;> cases run
    case h_1 => exact .inl rfl
    case h_2 text found => exact .inr ⟨text, List.mem_of_find?_eq_some found, rfl⟩
  case h_2 =>
    cases run
    exact .inl rfl

/-- An operator makes something new of its operands. Without one the parser only joins what may
belong to one. -/
theorem operatorStep_eq_some {start least : Nat} {left : Expr} {found : Option Expr}
    (run : operatorStep r c start least left s = some (found, s')) :
    (found = none ∧ JoinsAngle s s') ∨ Found Expr.IsLoose found := by
  obtain ⟨_, joined, angle, rest⟩ := run_of_bind run
  have moved := joinAngle_eq_some angle
  rw [token_bind] at rest
  cases here : plainText joined.lexeme.token with
  | none =>
    rw [here] at rest
    cases rest
    exact .inl ⟨rfl, moved⟩
  | some text =>
    rw [here] at rest
    dsimp only at rest
    cases binds : level? c text with
    | none =>
      rw [binds] at rest
      cases rest
      exact .inl ⟨rfl, moved⟩
    | some level =>
      rw [binds] at rest
      dsimp only at rest
      by_cases loose : (if text == "**" then level < least else level ≤ least)
      · rw [if_pos loose] at rest
        cases rest
        exact .inl ⟨rfl, moved⟩
      · rw [if_neg loose] at rest
        by_cases ascribes : (text == "as" || text == "satisfies") = true
        · rw [if_pos ascribes] at rest
          obtain ⟨newline, _, looked, chosen⟩ := run_of_bind rest
          cases still_onNewLine looked
          cases newline with
          | true =>
            cases chosen
            exact .inl ⟨rfl, moved⟩
          | false =>
            refine .inr (Returns.bind (Q := Found Expr.IsLoose) (fun _ => ?_) chosen)
            iterate 2 refine .bind fun _ => ?_
            exact .pure ⟨_, rfl, rfl⟩
        · rw [if_neg ascribes] at rest
          refine .inr (Returns.bind (Q := Found Expr.IsLoose) (fun _ => ?_) rest)
          iterate 3 refine .bind fun _ => ?_
          refine .ite (.bind fun _ => .pure ⟨_, rfl, rfl⟩) ?_
          exact .ite (.pure ⟨_, rfl, rfl⟩) (.pure ⟨_, rfl, rfl⟩)

theorem eq_of_joinsAngle (joins : JoinsAngle s s') (ends : s'.lexeme.token = .finished ∨
    plainText s'.lexeme.token = some ";" ∨ plainText s'.lexeme.token = some ")") : s' = s := by
  have each : ∀ text ∈ Token.angleMarks, Token.mark text ≠ .finished ∧
      plainText (.mark text) ≠ some ";" ∧ plainText (.mark text) ≠ some ")" := by decide
  rcases joins with same | ⟨text, member, angle⟩
  · exact same
  · obtain ⟨unfinished, noSemicolon, noParenthesis⟩ := each text member
    rw [angle] at ends
    rcases ends with finished | semicolon | parenthesis
    · exact absurd finished unfinished
    · exact absurd semicolon noSemicolon
    · exact absurd parenthesis noParenthesis

theorem unary_of_binaryRule {least : Nat} (run : binaryRule r c least s = some (e, s'))
    (enclosed : e.isEnclosed = true) :
    ∃ middle, r.unary c s = some (e, middle) ∧ JoinsAngle middle s' := by
  have named : Returns Expr.IsLoose (do
      advance
      expect "in"
      let right ← r.binary c 8
      return Expr.other (← spanFrom s.lexeme.start) [right]) := by
    iterate 4 refine .bind fun _ => ?_
    exact .pure rfl
  obtain ⟨_, _, started, rest⟩ := run_of_bind run
  cases started
  obtain ⟨_, _, looked, chosen⟩ := run_of_bind rest
  cases looked
  split at chosen
  case isTrue => cases enclosed.symm.trans (named chosen)
  case isFalse =>
    obtain ⟨left, behind, read, operators⟩ := run_of_bind chosen
    have goes : (e = left ∧ JoinsAngle behind s') ∨ e.IsLoose := by
      refine loop_eq_some (fun left s result s' run => ?_) operators
      obtain ⟨found, _, step, same⟩ := run_of_bind run
      rcases operatorStep_eq_some step with ⟨rfl, joins⟩ | ⟨e, rfl, made⟩
      · cases same
        exact .inl ⟨rfl, joins⟩
      · cases same
        exact .inr made
    rcases goes with ⟨rfl, joins⟩ | loose
    · exact ⟨behind, read, joins⟩
    · cases enclosed.symm.trans loose

theorem returns_markupRule {isInside : Bool} : Returns Expr.IsLoose (markupRule r c isInside) := by
  unfold markupRule
  iterate 3 refine .bind fun _ => ?_
  refine .ite ?_ (.bind fun _ => .bind fun _ => .ite (.bind fun _ => ?_) (.bind fun _ => ?_))
  case refine_1 =>
    iterate 3 refine .bind fun _ => ?_
    exact .pure rfl
  -- With and without types the attributes come next.
  all_goals
    refine .bind fun _ => .bind fun _ => .ite (.bind fun _ => .pure rfl) ?_
    iterate 5 refine .bind fun _ => ?_
    exact .pure rfl

theorem returns_markup (depth : Nat) (c : Context) (isInside : Bool) :
    Returns Expr.IsLoose ((rules depth).markup c isInside) := by
  cases depth with
  | zero => exact .fail
  | succ depth => exact fun _ _ _ run => returns_markupRule run

theorem operand_of_updateExpression
    (markup : ∀ c isInside, Returns Expr.IsLoose (r.markup c isInside))
    (run : updateExpression r c s = some (e, s')) (enclosed : e.isEnclosed = true) :
    r.operand c s = some (e, s') := by
  have counted (operand : Expr) (before : Parser Unit) : Returns Expr.IsLoose (do
      before
      advance
      return Expr.other (← spanFrom s.lexeme.start) [operand]) := by
    iterate 3 refine .bind fun _ => ?_
    exact .pure rfl
  obtain ⟨_, _, started, rest⟩ := run_of_bind run
  cases started
  obtain ⟨counts, _, looked, rest⟩ := run_of_bind rest
  cases still_atAny _ looked
  split at rest
  case isTrue =>
    have first : Returns Expr.IsLoose (do
        advance
        let operand ← r.unary c
        require operand.isPlace
        return Expr.other (← spanFrom s.lexeme.start) [operand]) := by
      iterate 4 refine .bind fun _ => ?_
      exact .pure rfl
    cases enclosed.symm.trans (first rest)
  case isFalse =>
    obtain ⟨marks, _, looked, rest⟩ := run_of_bind rest
    cases still_wouldRead _ looked
    split at rest
    case isTrue => cases enclosed.symm.trans (markup _ _ rest)
    case isFalse =>
      obtain ⟨operand, middle, read, last⟩ := run_of_bind rest
      obtain ⟨_, _, looked, last⟩ := run_of_bind last
      cases still_atAny _ looked
      obtain ⟨_, _, looked, last⟩ := run_of_bind last
      cases still_onNewLine looked
      split at last
      case isTrue => cases enclosed.symm.trans (counted operand _ last)
      case isFalse =>
        cases last
        exact read

theorem operand_of_unaryRule (markup : ∀ c isInside, Returns Expr.IsLoose (r.markup c isInside))
    (run : unaryRule r c s = some (e, s')) (enclosed : e.isEnclosed = true) :
    r.operand c s = some (e, s') := by
  have made (make : Span → Expr → Expr) (loose : ∀ span operand, (make span operand).IsLoose) :
      Returns Expr.IsLoose (do
        let operand ← r.unary c
        return make (← spanFrom s.lexeme.start) operand) := by
    iterate 2 refine .bind fun _ => ?_
    exact .pure (loose _ _)
  obtain ⟨_, _, started, rest⟩ := run_of_bind run
  cases started
  obtain ⟨negates, _, eaten, chosen⟩ := run_of_bind rest
  rcases eat_eq_some eaten with ⟨rfl, -, -⟩ | ⟨rfl, -, rfl⟩
  · cases enclosed.symm.trans (made .negation (fun _ _ => rfl) chosen)
  · obtain ⟨signs, _, looked, positive⟩ := run_of_bind chosen
    cases still_atAny _ looked
    split at positive
    case isTrue =>
      cases enclosed.symm.trans
        ((Returns.bind fun _ => made .prefixed fun _ _ => rfl) positive)
    case isFalse =>
      obtain ⟨waits, _, looked, unsigned⟩ := run_of_bind positive
      cases still_at? _ looked
      split at unsigned
      case isTrue =>
        cases enclosed.symm.trans ((Returns.bind fun _ =>
          made (fun span operand => .other span [operand]) fun _ _ => rfl) unsigned)
      case isFalse => exact operand_of_updateExpression markup unsigned enclosed

/-! Behind an operand. -/

theorem returns_bracketMember {start : Nat} {object : Expr} :
    Returns Expr.IsLoose (bracketMember r c start object) := by
  unfold bracketMember
  iterate 4 refine .bind fun _ => ?_
  exact .pure rfl

theorem returns_namedMember {start : Nat} {object : Expr} :
    Returns Expr.IsLoose (namedMember start object) := by
  unfold namedMember
  refine .bind fun token => ?_
  split
  · iterate 2 refine .bind fun _ => ?_
    exact .pure rfl
  · iterate 2 refine .bind fun _ => ?_
    exact .pure rfl

theorem finds_memberStep {start : Nat} {allowsChain : Bool} {chained : Chained} :
    Finds Chained.IsLoose (memberStep r c start allowsChain chained) := by
  have member (isChain : Bool) {p : Parser Expr} (returns : Returns Expr.IsLoose p) :
      Returns (Found Chained.IsLoose)
        (do return some ⟨← p, isChain⟩) := by
    intro s found s' run
    obtain ⟨e, _, ran, same⟩ := run_of_bind run
    cases same
    exact ⟨_, rfl, returns ran⟩
  unfold memberStep
  refine .look still_token fun token => ?_
  split
  case h_1 => exact .ite .nothing (.of_returns (member _ returns_bracketMember))
  case h_2 => exact .of_returns (.bind fun _ => member _ returns_namedMember)
  case h_3 =>
    refine .ite .nothing (.look (still_wouldRead _) fun _ => .look (still_wouldRead _) fun _ => ?_)
    refine .ite .nothing (.of_returns (.bind fun _ => ?_))
    exact .ite (member _ returns_bracketMember) (member _ returns_namedMember)
  case h_4 =>
    refine .look still_onNewLine fun _ => .ite .nothing (.of_returns ?_)
    iterate 2 refine .bind fun _ => ?_
    exact .pure ⟨_, rfl, rfl⟩
  case h_5 =>
    refine .of_returns ?_
    iterate 3 refine .bind fun _ => ?_
    exact .pure ⟨_, rfl, rfl⟩
  case h_6 | h_7 =>
    exact .tried (fun types => .bind fun _ => .pure ⟨_, rfl, rfl⟩) .nothing
  case h_8 => exact .nothing

/-- Members make something new of what stands before them; without one the parser does not move. -/
theorem memberRest_eq_some {start : Nat} {allowsChain : Bool} {chained chained' : Chained}
    (run : memberRest r c start allowsChain chained s = some (chained', s')) :
    (chained' = chained ∧ s' = s) ∨ chained'.IsLoose := by
  refine loop_eq_some (K := fun s s' => s' = s) (fun chained s result s' run => ?_) run
  obtain ⟨found, _, step, same⟩ := run_of_bind run
  rcases finds_memberStep step with ⟨rfl, rfl⟩ | ⟨e, rfl, made⟩
  · cases same
    exact .inl ⟨rfl, rfl⟩
  · cases same
    exact .inr made

theorem returns_call {start : Nat} {chained : Chained} {types : List Expr} {isChain : Bool} :
    Returns (Found Chained.IsLoose) (do
      let arguments ← arguments r c
      let span ← spanFrom start
      match chained.expr, isChain with
      | .instantiation _ callee types, false =>
        return some { chained with expr := .call span callee types arguments }
      | callee, _ =>
        return some ⟨.call span callee types arguments, chained.isChain || isChain⟩) := by
  iterate 2 refine .bind fun _ => ?_
  split <;> exact .pure ⟨_, rfl, rfl⟩

/-- A call makes something new of what stands before it; without one the parser does not move. -/
theorem finds_callStep {start : Nat} {chained : Chained} :
    Finds Chained.IsLoose (callStep r c start chained) := by
  intro s found s' run
  obtain ⟨isChain, middle, eaten, rest⟩ := run_of_bind run
  obtain ⟨angle, _, looked, typed⟩ := run_of_bind rest
  cases still_atAny _ looked
  cases isChain with
  | true =>
    have refused : Returns (Found Chained.IsLoose)
        (do require !true; return none) := by
      rintro s found s' ⟨⟩
    dsimp only at typed
    refine .inr (Returns.ite (P := Found Chained.IsLoose) (.bind fun _ => ?_)
      (.bind fun _ => ?_) typed) <;>
      exact .bind fun _ => .ite returns_call refused
  | false =>
    rcases eat_eq_some eaten with ⟨⟨⟩, -, -⟩ | ⟨-, -, rfl⟩
    obtain ⟨_, _, given, untyped⟩ := run_of_bind typed
    cases given
    obtain ⟨calls, _, looked, last⟩ := run_of_bind untyped
    cases still_at? _ looked
    cases calls with
    | true => exact .inr (returns_call last)
    | false =>
      cases last
      exact .inl ⟨rfl, rfl⟩

theorem primary_of_operandRule (run : operandRule r c s = some (e, s'))
    (enclosed : e.isEnclosed = true) : primary r c r.bound s = some (e, s') := by
  obtain ⟨_, _, started, rest⟩ := run_of_bind run
  cases started
  obtain ⟨head, behind, read, parts⟩ := run_of_bind rest
  obtain ⟨chained, last, ran, given⟩ := run_of_bind parts
  have goes : (chained = ⟨head, false⟩ ∧ last = behind) ∨ chained.IsLoose := by
    refine loop_eq_some (K := fun s s' => s' = s) (fun chained s result s' run => ?_) ran
    obtain ⟨behind, middle, members, step⟩ := run_of_bind run
    obtain ⟨found, _, called, same⟩ := run_of_bind step
    rcases finds_callStep called with ⟨rfl, rfl⟩ | ⟨e, rfl, made⟩
    · cases same
      rcases memberRest_eq_some members with ⟨rfl, rfl⟩ | loose
      · exact .inl ⟨rfl, rfl⟩
      · exact .inr loose
    · cases same
      exact .inr made
  rcases goes with ⟨rfl, rfl⟩ | loose
  · cases given
    exact read
  · split at given
    case isTrue =>
      obtain ⟨_, _, spanned, done⟩ := run_of_bind given
      cases done
      cases enclosed
    case isFalse =>
      cases given
      cases enclosed.symm.trans loose

/-- An expression in parentheses or braces of its own was read as the head of the first operand. -/
theorem primary_of_comma {depth : Nat} (plain : c.yields = false)
    (run : (rules (depth + 7)).comma c s = some (e, s')) (enclosed : e.isEnclosed = true) :
    ∃ middle, primary (rules (depth + 2)) { c with decorates := false } (depth + 2) s =
      some (e, middle) ∧ JoinsAngle middle s' := by
  have value : assignmentRule (rules (depth + 5)) { c with decorates := false } true s =
      some (e, s') := value_of_commaRule run enclosed
  have plain' : { c with decorates := false }.yields = false := plain
  obtain ⟨-, binary⟩ := binary_of_assignmentRule plain' value enclosed
  obtain ⟨middle, unary, joins⟩ := unary_of_binaryRule binary enclosed
  have operand := operand_of_unaryRule (returns_markup _) unary enclosed
  exact ⟨middle, primary_of_operandRule operand enclosed, joins⟩

theorem returns_single {make : Span → Expr} {P : Expr → Prop} (holds : ∀ span, P (make span)) :
    Returns P (single make) :=
  .bind fun _ => .bind fun _ => .bind fun _ => .pure (holds _)

theorem returns_functionExpression : Returns Expr.IsLoose (functionExpression r c) :=
  .bind fun _ => .bind fun _ => .bind fun _ => .pure rfl

theorem returns_classExpression : Returns Expr.IsLoose (classExpression r c) :=
  .bind fun _ => .bind fun _ => .bind fun _ => .bind fun _ => .pure rfl

theorem returns_regularExpression : Returns Expr.IsLoose regularExpression := by
  unfold regularExpression
  refine .bind fun l => ?_
  split
  · exact .fail
  · split
    · exact .fail
    · exact .bind fun _ => .pure rfl

theorem returns_importExpression : Returns Expr.IsLoose (importExpression r c) := by
  unfold importExpression
  -- Every way through the choices ends in one and the same expression.
  repeat first
    | exact .pure rfl
    | refine .ite ?_ ?_
    | refine .bind fun _ => ?_

theorem returns_newExpression {operand : Parser Expr} :
    Returns Expr.IsLoose (newExpression r c operand) := by
  unfold newExpression
  repeat first
    | exact .pure rfl
    | refine .ite ?_ ?_
    | refine .bind fun _ => ?_

theorem token_of_primary {depth : Nat} {span : Span} {members : List Member}
    (run : primary r c depth s = some (.object span members, s')) :
    s.lexeme.token = .mark "\x7b" := by
  have loose {p : Parser Expr} (returns : Returns Expr.IsLoose p) :
      Returns (· ≠ Expr.object span members) p := by
    rintro s e s' run rfl
    cases returns run
  cases depth with
  | zero => cases run
  | succ depth =>
    by_contra noBrace
    rw [primary, token_bind] at run
    generalize s.lexeme.token = found at run noBrace
    refine absurd rfl ((?_ : Returns (· ≠ Expr.object span members) _) run)
    split
    case h_1 | h_2 | h_3 | h_11 | h_12 | h_13 | h_14 => exact loose (returns_single fun _ => rfl)
    case h_4 => exact loose (.bind fun _ => .bind fun _ => .bind fun _ => .pure rfl)
    case h_5 =>
      refine .bind fun _ => .bind fun _ => .bind fun _ => .bind fun _ => .bind fun _ => .pure ?_
      rintro ⟨⟩
    case h_6 =>
      refine loose (.bind fun _ => .bind fun _ => .bind fun _ => .bind fun _ => .bind fun _ => ?_)
      exact .pure rfl
    case h_7 => exact absurd rfl noBrace
    case h_8 | h_9 => exact loose returns_regularExpression
    case h_10 | h_16 => exact loose returns_classExpression
    case h_15 => exact loose returns_functionExpression
    case h_17 =>
      refine loose (.bind fun _ => .bind fun _ => .bind fun _ => .bind fun _ => .bind fun _ => ?_)
      exact .pure rfl
    case h_18 => exact loose returns_importExpression
    case h_19 => exact loose returns_newExpression
    case h_20 =>
      refine .bind fun _ => .ite (loose returns_functionExpression) ?_
      exact loose (.bind fun _ => .bind fun _ => .bind fun _ => .pure rfl)

theorem token_of_comma {depth : Nat} {span : Span} {members : List Member}
    (plain : c.yields = false)
    (run : (rules (depth + 7)).comma c s = some (.object span members, s')) :
    s.lexeme.token = .mark "\x7b" := by
  obtain ⟨middle, primary, -⟩ := primary_of_comma plain run rfl
  exact token_of_primary primary

/-! The only statement of a module. -/

theorem endStatement_eq_some {found : Unit} (run : endStatement s = some (found, s')) :
    s' = s ∨ plainText s.lexeme.token = some ";" ∧ advance s = some ((), s') := by
  obtain ⟨ends, _, eaten, rest⟩ := run_of_bind run
  rcases eat_eq_some eaten with ⟨rfl, here, moved⟩ | ⟨rfl, -, rfl⟩
  · cases rest
    exact .inr ⟨here, moved⟩
  · obtain ⟨_, _, looked, other⟩ := run_of_bind rest
    cases still_at? _ looked
    obtain ⟨_, _, looked, other⟩ := run_of_bind other
    cases still_onNewLine looked
    split at other
    case isTrue =>
      cases other
      exact .inl rfl
    case isFalse =>
      obtain ⟨_, _, looked, required⟩ := run_of_bind other
      cases looked
      exact .inl (still_require _ required)

end Grammar

open DesignLink.Script.Parser Grammar

/-- The only statement of a module without directives goes up to the end of its text. -/
theorem statement_of_read? {text : List Char} {statement : Statement}
    (first : Lexeme.first text = .next ⟨0, text⟩)
    (noDirective : NoDirective (Lexeme.next ⟨0, text⟩).token)
    (read : Module.read? text = some ⟨[statement]⟩) :
    ∃ s, (rules (8 * text.length + 64)).statement .module .outermost (.facing 0 ⟨0, text⟩ 0) =
      some (statement, s) ∧ s.lexeme.token = .finished ∧ s.waiting = 0 := by
  have directives : skipDirectives (rules (8 * text.length + 64)) .module .outermost
      (.facing 0 ⟨0, text⟩ 0) = some ([], .facing 0 ⟨0, text⟩ 0) :=
    skipDirectives_of_noDirective (by rw [bound_rules]; omega) _ noDirective
  have still : Still (do return !((← token) == .finished)) := by
    rintro s more s' run
    cases run
    rfl
  rw [Module.read?, first] at read
  split at read
  case h_2 => cases read
  case h_1 body s run =>
    split at read
    case isFalse => cases read
    case isTrue settled =>
      cases read
      obtain ⟨front, _, skipped, rest⟩ := run_of_bind run
      cases directives.symm.trans skipped
      obtain ⟨back, _, collected, same⟩ := run_of_bind rest
      cases same
      cases collectRun_of_run still collected with
      | next goesOn read rest =>
        cases rest with
        | done last =>
          cases still goesOn
          refine ⟨s, read, ?_, settled⟩
          simpa [bind_apply, token, pure_apply] using last

/-- If the only expression of a module is enclosed and its text starts with a parenthesis, then this
encloses it: what stands behind the parenthesis is an expression, up to another parenthesis that the
module ends with. -/
theorem comma_of_read? {text : List Char} {span : Span} {e : Expr}
    (read : Module.read? ('(' :: text) = some ⟨[.expression span e]⟩)
    (enclosed : e.isEnclosed = true) :
    ∃ span' inner s s', e = .group span' inner ∧
      (rules (8 * text.length + 66)).comma .module (.behind ⟨1, text⟩ 0) = some (inner, s) ∧
      expect ")" s = some ((), s') ∧ s'.waiting = 0 ∧
      (s'.lexeme.token = .finished ∨ plainText s'.lexeme.token = some ";" ∧
        (Lexeme.next s'.lexeme.after).token = .finished) := by
  have depth : 8 * ('(' :: text).length + 64 = 8 * text.length + 64 + 8 := by
    rw [List.length_cons]
    omega
  have noDirective : NoDirective (Lexeme.next ⟨0, '(' :: text⟩).token := by
    rintro _ ⟨⟩
  obtain ⟨last, statement, finished, settled⟩ := statement_of_read? rfl noDirective read
  rw [depth] at statement
  change ∃ span' inner s s', _ ∧ (rules (8 * text.length + 64 + 2)).comma _ _ = _ ∧ _
  generalize 8 * text.length + 64 = d at statement ⊢
  change statementRule (rules (d + 7)) .module .outermost _ = _ at statement
  rw [statementRule_of_parenthesis] at statement
  obtain ⟨_, _, started, rest⟩ := run_of_bind statement
  cases started
  obtain ⟨value, s', comma, ended⟩ := run_of_bind rest
  obtain ⟨_, _, ends, same⟩ := run_of_bind ended
  cases same
  have behind : s'.waiting = 0 ∧ (s'.lexeme.token = .finished ∨
      plainText s'.lexeme.token = some ";" ∧ (Lexeme.next s'.lexeme.after).token = .finished) := by
    rcases endStatement_eq_some ends with rfl | ⟨semicolon, moved⟩
    · exact ⟨settled, .inl finished⟩
    · unfold advance at moved
      split at moved <;> cases moved
      exact ⟨settled, .inr ⟨semicolon, finished⟩⟩
  obtain ⟨settled, behind⟩ := behind
  obtain ⟨middle, group, joins⟩ := primary_of_comma rfl comma enclosed
  cases eq_of_joinsAngle joins (behind.imp id fun ends => .inl ends.1)
  have group : groupExpression (rules (d + 2)) .module (.facing 0 ⟨0, '(' :: text⟩ 0) =
      some (e, s') := group
  obtain ⟨_, _, started, rest⟩ := run_of_bind group
  cases started
  obtain ⟨_, _, opened, rest⟩ := run_of_bind rest
  cases (rfl : expect "(" (.facing 0 ⟨0, '(' :: text⟩ 0) =
    some ((), .behind ⟨1, text⟩ 0)).symm.trans opened
  obtain ⟨inner, s, commaInside, rest⟩ := run_of_bind rest
  obtain ⟨_, _, closed, rest⟩ := run_of_bind rest
  obtain ⟨span', _, spanned, same⟩ := run_of_bind rest
  cases spanned
  cases same
  exact ⟨_, inner, s, _, rfl, commaInside, closed, settled, behind⟩

end DesignLink.Script
