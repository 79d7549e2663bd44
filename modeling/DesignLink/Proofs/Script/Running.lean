import DesignLink.Proofs.Script.Lexing
import DesignLink.Script.Module

/-!
Runs of parsers: how steps in a row, choices and lists go on from a state, and how an operand becomes
an expression when the next token ends it.
-/

namespace DesignLink.Script

/-- The state of a parser at a place, behind the end of a token. -/
def State.facing (previous : Nat) (place : Place) (waiting : Nat) : State :=
  ⟨.next place, previous, waiting⟩

/-- The state of a parser behind a token that ended at a place. -/
def State.behind (place : Place) (waiting : Nat) : State := .facing place.offset place waiting

namespace Parser

variable {α β : Type}

theorem bind_apply (p : Parser α) (next : α → Parser β) (s : State) :
    (p >>= next) s = (p s).bind fun r => next r.1 r.2 := rfl

theorem run_of_bind {p : Parser α} {next : α → Parser β} {s s' : State} {b : β}
    (run : (p >>= next) s = some (b, s')) :
    ∃ a middle, p s = some (a, middle) ∧ next a middle = some (b, s') := by
  rw [bind_apply, Option.bind_eq_some_iff] at run
  obtain ⟨⟨a, middle⟩, first, rest⟩ := run
  exact ⟨a, middle, first, rest⟩

theorem token_bind (next : Token → Parser β) (s : State) :
    (token >>= next) s = next s.lexeme.token s := rfl

theorem pure_apply (a : α) (s : State) : (pure a : Parser α) s = some (a, s) := rfl

theorem map_apply (f : α → β) (p : Parser α) (s : State) :
    (f <$> p) s = (p s).map fun r => (f r.1, r.2) := by
  change (p s).bind _ = _
  cases p s <;> rfl

theorem ite_apply {condition : Prop} [Decidable condition] (p q : Parser α) (s : State) :
    (if condition then p else q) s = if condition then p s else q s := by
  split <;> rfl

/-- The parser stands at none of some marks and words. -/
def NotAt (texts : List String) (s : State) : Prop :=
  ∀ text ∈ texts, plainText s.lexeme.token ≠ some text

section NotAt

variable {texts : List String} {s : State} (notAt : NotAt texts s)
include notAt

theorem NotAt.of_subset {fewer : List String} (among : fewer ⊆ texts) : NotAt fewer s :=
  fun text member => notAt text (among member)

theorem NotAt.at? {text : String} (member : text ∈ texts) : at? text s = some (false, s) := by
  have other := notAt text member
  simp [Parser.at?, other]

theorem NotAt.atAny {some_ : List String} (members : ∀ text ∈ some_, text ∈ texts) :
    atAny some_ s = some (false, s) := by
  unfold Parser.atAny
  cases found : plainText s.lexeme.token with
  | none => rfl
  | some text =>
    have absent : text ∉ some_ := fun member => notAt text (members text member) found
    simp [absent]

theorem NotAt.eat {text : String} (member : text ∈ texts) : eat text s = some (false, s) := by
  simp [Parser.eat, bind_apply, notAt.at? member, pure_apply]

end NotAt

theorem notAt_of_plainText {s : State} {text : String} (texts : List String)
    (found : plainText s.lexeme.token = some text) (absent : text ∉ texts) : NotAt texts s := by
  intro other member same
  rw [found] at same
  obtain rfl := Option.some.inj same
  exact absent member

theorem atWord_of_word {s : State} {text : String} {escaped : Bool}
    (found : s.lexeme.token = .word text escaped) : atWord s = some (true, s) := by
  simp only [atWord, token_bind, found]
  rfl

/-- The tokens that end an expression: a comma, a closing mark, what starts the next declaration
and the end of the text. -/
def stopTokens : List Token := [
  .mark ",", .mark ")", .mark "]", .mark "\x7d", .word "export" false, .word "const" false,
  .word "figma" false, .finished]

/-- The next token ends an expression. -/
def Stops (s : State) : Prop := s.lexeme.token ∈ stopTokens

end Parser

namespace Grammar

open DesignLink.Script.Parser

/-- What makes more of an expression than operands and operators when it comes first. -/
def arrowOpeners : List String := ["(", "<", "async"]

/-- What comes before an operand and belongs to the expression around it. -/
def operatorOpeners : List String :=
  ["-", "+", "~", "!", "delete", "typeof", "void", "await", "++", "--", "<"]

/-- What makes more of an operand than an operand when it comes first. -/
def openers : List String := operatorOpeners ++ arrowOpeners

/-- What goes on with an operand behind it. -/
def followers : List String :=
  ["++", "--", "=>", "=", "?", "?.", "(", "<", "<<"] ++ assignmentMarks

theorem notAt_of_stops {s : State} (stops : Stops s) : NotAt followers s := by
  have disjoint : ∀ token ∈ stopTokens, ∀ text ∈ followers, plainText token ≠ some text := by
    decide
  exact disjoint _ stops

theorem level?_of_stops {s : State} (stops : Stops s) (c : Context) :
    ∀ text, plainText s.lexeme.token = some text → level? c text = none := by
  have each : ∀ token ∈ stopTokens, ∀ text, plainText token = some text →
      level? c text = none := by
    intro token member text found
    simp only [stopTokens, List.mem_cons, List.not_mem_nil, or_false] at member
    rcases member with rfl | rfl | rfl | rfl | rfl | rfl | rfl | rfl <;>
      first
      | cases found; rfl
      | cases found
  exact each _ stops

theorem bound_rules (depth : Nat) : (rules depth).bound = depth := by cases depth <;> rfl

variable {d : Nat} {r : Rules} {c : Context} {s s' : State} {e : Expr}

/-! An operand in front of a token that ends the expression is an expression of every level. -/

theorem updateExpression_of_operand (opens : NotAt operatorOpeners s)
    (read : r.operand c s = some (e, s')) (stops : Stops s') :
    updateExpression r c s = some (e, s') := by
  have noAngle : at? "<" s = some (false, s) := opens.at? (by decide)
  have noMarkup : atMarkup s = some (false, s) := by
    simp [atMarkup, wouldRead, expect, bind_apply, noAngle, fail]
  have noStep : atAny ["++", "--"] s = some (false, s) := opens.atAny (by decide)
  have noStep' : atAny ["++", "--"] s' = some (false, s') :=
    (notAt_of_stops stops).atAny (by decide)
  simp [updateExpression, bind_apply, noStep, noMarkup, read, noStep', pure_apply, start,
    onNewLine]

theorem unaryRule_of_operand (opens : NotAt operatorOpeners s)
    (read : r.operand c s = some (e, s')) (stops : Stops s') :
    unaryRule r c s = some (e, s') := by
  have noMinus : eat "-" s = some (false, s) := opens.eat (by decide)
  have noSign : atAny ["+", "~", "!", "delete", "typeof", "void"] s = some (false, s) :=
    opens.atAny (by decide)
  have noAwait : at? "await" s = some (false, s) := opens.at? (by decide)
  have update := updateExpression_of_operand opens read stops
  cases awaits : c.awaits <;>
    simp [unaryRule, bind_apply, noMinus, noSign, noAwait, awaits, update, start]

theorem joinAngle_of_stops (stops : Stops s) : joinAngle s = some ((), s) := by
  unfold joinAngle
  split
  case h_1 found =>
    rw [Stops, found] at stops
    exact absurd stops (by decide)
  case h_2 => rfl

theorem operatorStep_of_stops (stops : Stops s) (start least : Nat) (left : Expr) :
    operatorStep r c start least left s = some (none, s) := by
  simp only [operatorStep, bind_apply, joinAngle_of_stops stops, token, Option.bind_some]
  cases found : plainText s.lexeme.token with
  | none => rfl
  | some text =>
    simp only [level?_of_stops stops c text found]
    rfl

theorem iterate_done {α β : Type} {step : α → Parser (α ⊕ β)} {a : α} {b : β} {bound : Nat}
    (positive : 0 < bound) (done : step a s = some (.inr b, s')) :
    iterate step bound a s = some (b, s') := by
  obtain ⟨bound, rfl⟩ : ∃ less, bound = less + 1 := ⟨bound - 1, by omega⟩
  simp [iterate, bind_apply, done, pure_apply]

theorem binaryRule_of_operand (least : Nat) (positive : 0 < r.bound)
    (public_ : s.lexeme.token ≠ .privateName)
    (read : r.unary c s = some (e, s')) (stops : Stops s') :
    binaryRule r c least s = some (e, s') := by
  cases allows : c.allowsIn with
  | false =>
    simp [binaryRule, bind_apply, start, token, allows, read]
    exact iterate_done positive (by simp [bind_apply, operatorStep_of_stops stops, pure_apply])
  | true =>
    simp [binaryRule, bind_apply, start, token, public_, ite_apply, allows, read]
    exact iterate_done positive (by simp [bind_apply, operatorStep_of_stops stops, pure_apply])

theorem arrowFunction?_of_notAt {r : Rules} (allowsResult : Bool) (opens : NotAt arrowOpeners s) :
    arrowFunction? r c allowsResult s = some (none, s) := by
  have none_ : atAny ["(", "<", "async"] s = some (false, s) := opens.atAny (by decide)
  simp [arrowFunction?, bind_apply, none_, pure_apply]

/-- Operands and operators up to a token that ends expressions are an expression, if no arrow
function starts with them. -/
theorem assignmentRule_of_binary {r : Rules} {allowsResult : Bool} (plain : c.yields = false)
    (noArrow : arrowFunction? r c allowsResult s = some (none, s))
    (read : r.binary c 0 s = some (e, s')) (stops : Stops s') :
    assignmentRule r c allowsResult s = some (e, s') := by
  have follows := notAt_of_stops stops
  have noArrow' : at? "=>" s' = some (false, s') := follows.at? (by decide)
  have noEquals : at? "=" s' = some (false, s') := follows.at? (by decide)
  have noChange : atAny assignmentMarks s' = some (false, s') := follows.atAny (by decide)
  have noQuestion : eat "?" s' = some (false, s') := follows.eat (by decide)
  have rest : assignmentRest r c s.lexeme.start e allowsResult s' = some (e, s') := by
    simp [assignmentRest, bind_apply, noArrow', noEquals, noChange, conditionalRest, noQuestion,
      pure_apply]
  simp [assignmentRule, bind_apply, plain, at?, noArrow, start, read, rest]

theorem value_of_unary {allowsResult : Bool} (plain : c.yields = false)
    (noArrow : arrowFunction? (rules (d + 3)) c allowsResult s = some (none, s))
    (public_ : s.lexeme.token ≠ .privateName)
    (read : unaryRule (rules (d + 1)) c s = some (e, s')) (stops : Stops s') :
    (rules (d + 4)).assignment c allowsResult s = some (e, s') := by
  have binary : (rules (d + 3)).binary c 0 s = some (e, s') :=
    binaryRule_of_operand (r := rules (d + 2)) 0 (Nat.succ_pos _) public_ read stops
  exact assignmentRule_of_binary plain noArrow binary stops

theorem value_of_operand (allowsResult : Bool) (plain : c.yields = false)
    (opens : NotAt openers s) (public_ : s.lexeme.token ≠ .privateName)
    (read : operandRule (rules d) c s = some (e, s')) (stops : Stops s') :
    (rules (d + 4)).assignment c allowsResult s = some (e, s') := by
  have operators : NotAt operatorOpeners s :=
    opens.of_subset (List.subset_append_left _ _)
  have arrows : NotAt arrowOpeners s := opens.of_subset (List.subset_append_right _ _)
  have unary : unaryRule (rules (d + 1)) c s = some (e, s') :=
    unaryRule_of_operand (r := rules (d + 1)) operators read stops
  exact value_of_unary plain (arrowFunction?_of_notAt allowsResult arrows) public_ unary stops

end Grammar

end DesignLink.Script
