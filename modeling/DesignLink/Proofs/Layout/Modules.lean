import DesignLink.Proofs.Layout.Statements
import DesignLink.Script.Module

/-!
The expressions of a module lie in the order of the text, each within the one around it, and are
what the marks around them say: every rule of the grammar keeps to this if the rules for shorter
texts do.
-/

namespace DesignLink.Script

open DesignLink.Script.Parser Grammar

theorem Rules.orderly_nothing : Rules.nothing.Orderly where
  grammar := ⟨0, rfl⟩
  comma _ := .of_since fun _ => .fail
  assignment _ _ := .of_since fun _ => .fail
  binary _ _ := .of_since fun _ => .fail
  unary _ := .of_since fun _ => .fail
  operand _ := .of_since fun _ => .fail
  statement _ _ := .of_since fun _ => .fail
  target _ := .of_since fun _ => .fail
  type _ := .of_since fun _ => .fail
  markup _ _ := .of_since fun _ => .fail

theorem Grammar.orderly_step {depth : Nat} (orderly : (rules depth).Orderly) :
    (rules (depth + 1)).Orderly where
  grammar := ⟨depth + 1, rfl⟩
  comma c := lays_commaRule orderly c
  assignment c allowsResult := lays_assignmentRule orderly c allowsResult
  binary c least := lays_binaryRule orderly c least
  unary c := lays_unaryRule orderly c
  operand c := lays_operandRule orderly c
  statement c place := lays_statementRule orderly c place
  target c := lays_targetRule orderly c
  type c := lays_typeRule orderly c
  markup c isInside := lays_markupRule orderly c isInside

theorem Grammar.orderly_rules (depth : Nat) : (rules depth).Orderly := by
  induction depth with
  | zero => exact Rules.orderly_nothing
  | succ depth ih => exact orderly_step ih

def Statement.Holds : Statement → Expr → Prop
  | .expression _ value, e => e.Within value
  | .other parts, e => ∃ p ∈ parts, e.Within p

theorem Statement.holds_iff {statement : Statement} {e : Expr} :
    statement.Holds e ↔ ∃ p ∈ statement.parts, e.Within p := by
  cases statement with
  | expression span value => simp [Statement.Holds, Statement.parts]
  | other parts => rfl

namespace Module

def parts (module : Module) : List Expr := module.body.flatMap Statement.parts

def Holds (module : Module) (e : Expr) : Prop := ∃ statement ∈ module.body, statement.Holds e

theorem holds_iff {module : Module} {e : Expr} :
    module.Holds e ↔ ∃ p ∈ module.parts, e.Within p := by
  simp only [Holds, Statement.holds_iff, parts, List.mem_flatMap]
  constructor
  · rintro ⟨statement, among, p, part, within⟩
    exact ⟨p, ⟨statement, among, part⟩, within⟩
  · rintro ⟨p, ⟨statement, among, part⟩, within⟩
    exact ⟨statement, among, p, part, within⟩

theorem Holds.part {module : Module} {e p : Expr} (holds : module.Holds e) (inside : p ∈ e.parts) :
    module.Holds p := by
  obtain ⟨outer, part, within⟩ := holds_iff.mp holds
  exact holds_iff.mpr ⟨outer, part, within.head inside⟩

theorem lays_statements {r : Rules} (orderly : r.Orderly) :
    Lays (statements r) (·.flatMap Statement.parts) := by
  have more : Silent (do return !((← token) == .finished)) :=
    .of_since fun s => .pass silent_token fun _ => .done rfl
  unfold statements
  refine .of_since fun s => .read (lays_skipDirectives orderly _ _) fun _ => ?_
  exact .read (lays_collectWhile _ more (orderly.statement _ _)) fun _ => .done (by simp)

theorem placed_first (text : List Char) : State.Placed ⟨Lexeme.first text, 0, 0⟩ := by
  refine ⟨Nat.zero_le _, ?_⟩
  unfold Lexeme.first
  dsimp only
  split
  · split <;> exact Lexeme.start_le_stop_next _
  · exact Lexeme.start_le_stop_next _

theorem rooted_first (source : Source) :
    State.Rooted source ⟨Lexeme.first source.text, 0, 0⟩ := by
  have start : ∃ rest, source.GoesOn 0 rest := ⟨_, source.goesOn_zero⟩
  unfold Lexeme.first
  dsimp only
  split
  · split
    · exact State.rooted_next source.goesOn_zero start
    case h_2 skipped =>
      have rooted : State.Rooted source ⟨.next _, 0, 0⟩ :=
        State.rooted_next ((Gap.leads_skip skipped).goesOn source.goesOn_zero) start
      refine ⟨start, rooted.here, rooted.after, rooted.mark, fun isLast isPlain same => ?_⟩
      obtain ⟨opens, start_lt, closes⟩ := rooted.template isLast isPlain same
      exact ⟨opens, start_lt, closes⟩
  · exact State.rooted_next source.goesOn_zero start

theorem passage_of_read? {text : List Char} {module : Module} (read : read? text = some module) :
    ∃ s', Passage ⟨Lexeme.first text, 0, 0⟩ module.parts s' := by
  unfold read? at read
  dsimp only at read
  split at read
  case h_2 => cases read
  case h_1 body state run =>
    split at read
    case isFalse => cases read
    case isTrue =>
      cases read
      exact ⟨state, lays_statements (orderly_rules _) _ (placed_first text) run⟩

theorem laid_of_read? {text : List Char} {module : Module} (read : read? text = some module) :
    ∃ lo hi, Laid lo hi module.parts := by
  obtain ⟨s', passage⟩ := passage_of_read? read
  exact ⟨_, _, passage.laid⟩

theorem written_of_read? {source : Source} {module : Module} {e : Expr}
    (read : read? source.text = some module) (holds : module.Holds e) : e.Written source := by
  obtain ⟨s', passage⟩ := passage_of_read? read
  obtain ⟨p, part, within⟩ := holds_iff.mp holds
  exact passage.written source (rooted_first source) p part e within

end Module

end DesignLink.Script
