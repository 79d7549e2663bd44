import DesignLink.Proofs.Declaration.Entries
import DesignLink.Proofs.Declaration.RoundTrip
import DesignLink.Proofs.Script.Closing
import DesignLink.Proofs.Script.Enclosed
import DesignLink.Proofs.Text.Locations

/-!
Texts of props as they are read, in added parentheses. The parentheses make no difference where the
closing one is seen: a text that is one object literal on its own is read as this literal, and any
other text is refused. Places are shown as if there were no parentheses. Main statements:
`readProps_wrapped`, `location_wrapped`.
-/

namespace DesignLink

open Script Script.Parser Script.Grammar

namespace Declaration

/-- The first expression in a text of props, behind the parenthesis that is put in front of it. The
length bounds the rules, so that the text is read by the same ones with something behind it. -/
def expressionIn (length : Nat) (text : List Char) : Option (Expr × State) :=
  (rules (8 * length + 74)).comma .module (.behind ⟨1, text⟩ 0)

def headIn (length : Nat) (text : List Char) : Option (Expr × State) :=
  primary (rules (8 * length + 69)) .module (8 * length + 69) (.behind ⟨1, text⟩ 0)

/-- A text is one object literal on its own, up to blanks and comments. -/
def IsLiteral (text : String) (span : Span) (members : List Member) : Prop :=
  ∃ s, expressionIn text.toList.length text.toList = some (.object span members, s) ∧
    s.lexeme.token = .finished ∧ s.waiting = 0

/-- The closing parenthesis makes no difference to the braces in front of it: they are read alike
with and without it, it does not get lost in a comment behind them, and where nothing else follows
them no arrow function starts at the opening one; or no braces are read, with and without it. -/
inductive Undisturbed (text : List Char) : Prop where
  | braces {span : Span} {members : List Member} {stop : Nat} {rest : List Char} {waiting : Nat}
    (alone : headIn text.length text =
      some (.object span members, .behind ⟨stop, rest⟩ waiting))
    (enclosed : headIn text.length (text ++ [')']) =
      some (.object span members, .behind ⟨stop, rest ++ [')']⟩ waiting))
    (visible : ¬ Swallows ⟨stop, rest ++ [')']⟩)
    (noArrow : (Lexeme.next ⟨stop, rest⟩).token = .finished →
      arrowFunction? (rules (8 * text.length + 77)) .module true
        (.facing 0 ⟨0, '(' :: (text ++ [')'])⟩ 0) =
          some (none, .facing 0 ⟨0, '(' :: (text ++ [')'])⟩ 0))
  | noBraces (alone : ∀ span members s, headIn text.length text ≠ some (.object span members, s))
    (enclosed : ∀ span members s,
      headIn text.length (text ++ [')']) ≠ some (.object span members, s))

/-- What the parentheses make of a text: an object literal in front of a parenthesis that the module
ends with. -/
def IsWrapped (text : String) (span : Span) (members : List Member) : Prop :=
  ∃ s s', expressionIn text.toList.length (text.toList ++ [')']) = some (.object span members, s) ∧
    expect ")" s = some ((), s') ∧ s'.waiting = 0 ∧
    (s'.lexeme.token = .finished ∨ plainText s'.lexeme.token = some ";" ∧
      (Lexeme.next s'.lexeme.after).token = .finished)

variable {file text : String} {span : Span} {members : List Member}

theorem read?_of_soleExpression [Diagnoses] {source : Source}
    (found : soleExpression file text = .ok (source, .object span members)) :
    source = wrapped file text ∧ ∃ outer inner, Module.read? (wrapped file text).text =
      some ⟨[.expression outer (.group inner (.object span members))]⟩ := by
  unfold soleExpression at found
  extract_lets taken at found
  generalize read : Module.read? taken.text = result at found
  split at found
  case h_1 => cases found
  case h_2 outer inner e =>
    obtain ⟨same, rfl⟩ := Prod.mk.inj (Except.ok.inj found)
    exact ⟨same.symm, outer, inner, rfl⟩
  case h_3 outer e _ =>
    obtain ⟨-, rfl⟩ := Prod.mk.inj (Except.ok.inj found)
    obtain ⟨_, _, _, _, same, -⟩ := comma_of_read? read rfl
    cases same
  case h_4 => cases found

theorem expressionIn_concat (text : List Char) :
    expressionIn text.length (text ++ [')']) =
      (rules (8 * (text ++ [')']).length + 66)).comma .module
        (.behind ⟨1, text ++ [')']⟩ 0) := by
  have depth : 8 * (text ++ [')']).length + 66 = 8 * text.length + 74 := by
    rw [List.length_append, List.length_singleton]
    omega
  rw [expressionIn, depth]

theorem isWrapped_of_readProps [Diagnoses] {props : PropMapping} (read : readProps file text = .ok props) :
    ∃ span members, IsWrapped text span members ∧
      propsOf (wrapped file text) members = .ok props := by
  obtain ⟨⟨source, e⟩, found, rest⟩ := exists_of_bind read
  cases e with
  | object span members =>
    obtain ⟨rfl, outer, inner, module⟩ := read?_of_soleExpression found
    obtain ⟨_, _, s, s', same, comma, closing⟩ := comma_of_read? module rfl
    cases same
    exact ⟨span, members, ⟨s, s', (expressionIn_concat _).trans comma, closing⟩, rest⟩
  | _ => cases rest

/-! Braces and what follows them. -/

theorem headIn_of_expressionIn {length : Nat} {more : List Char} {s : State}
    (read : expressionIn length more = some (.object span members, s))
    (ends : s.lexeme.token = .finished ∨
      plainText s.lexeme.token = some ";" ∨ plainText s.lexeme.token = some ")") :
    headIn length more = some (.object span members, s) := by
  obtain ⟨middle, head, joins⟩ := primary_of_comma rfl read rfl
  cases eq_of_joinsAngle joins ends
  exact head

theorem expressionIn_of_headIn {length : Nat} {more : List Char} {s : State}
    (read : headIn length more = some (.object span members, s)) (stops : Stops s)
    (noComma : s.lexeme.token ≠ .mark ",") :
    expressionIn length more = some (.object span members, s) := by
  have brace : (Lexeme.next ⟨1, more⟩).token = .mark "\x7b" := token_of_primary read
  have starts : StartsOperand (Lexeme.next ⟨1, more⟩).token := brace ▸ startsOperand_brace
  have operand := operandRule_of_primary (Nat.succ_pos _) read stops
  have value := value_of_operand true rfl
    (fun mark member => starts.2 mark (List.mem_append_left _ member)) starts.1 operand stops
  exact comma_of_value rfl value stops noComma

/-- The closing parenthesis does not disturb a text that no brace stands in front of. -/
theorem undisturbed_of_noBrace {text : List Char}
    (noBrace : (Lexeme.next ⟨1, text⟩).token ≠ .mark "\x7b") : Undisturbed text := by
  refine .noBraces (fun _ _ _ read => noBrace (token_of_primary read)) ?_
  intro span members s read
  exact noBrace (next_of_concat (c := '\x7b') rfl (by decide) (fun _ _ => rfl)
    (congrArg plainText (token_of_primary read)))

/-- An object literal on its own is read as what it is, if the parenthesis does not disturb it. -/
theorem readProps_of_isLiteral [Diagnoses] (undisturbed : Undisturbed text.toList)
    (isLiteral : IsLiteral text span members) :
    readProps file text = propsOf (wrapped file text) members := by
  obtain ⟨s, expression, finished, settled⟩ := isLiteral
  have head := headIn_of_expressionIn expression (.inl finished)
  cases undisturbed with
  | @braces _ _ stop rest _ alone enclosed visible noArrow =>
    cases alone.symm.trans head
    cases settled
    have visible' : ¬ Place.InComment ⟨stop, rest ++ [')']⟩ := fun lost => visible (.comment lost)
    obtain ⟨parenthesis, stop', closing⟩ := expect_of_finished finished visible'
    have stops : Stops (.behind ⟨stop, rest ++ [')']⟩ 0) := by
      rw [Stops, State.behind, State.facing, parenthesis]
      decide
    have noComma : (Lexeme.next ⟨stop, rest ++ [')']⟩).token ≠ .mark "," := by
      rw [parenthesis]
      decide
    have wrapped_ := expressionIn_of_headIn enclosed stops noComma
    have arrow := noArrow finished
    have depth : 8 * text.toList.length + 77 = 8 * (text.toList ++ [')']).length + 69 := by
      rw [List.length_append, List.length_singleton]
      omega
    rw [depth] at arrow
    have read : Module.read? (wrapped file text).text = _ :=
      read?_of_comma ((expressionIn_concat _).symm.trans wrapped_) (closing 0) arrow
    rw [readProps, soleExpression_of_group read]
    rfl
  | noBraces alone => exact absurd head (alone span members s)

/-- What the parentheses make an object literal of is one on its own, if they do not disturb it. -/
theorem isLiteral_of_isWrapped (undisturbed : Undisturbed text.toList)
    (isWrapped : IsWrapped text span members) : IsLiteral text span members := by
  obtain ⟨s, s', found, closing, settled, ends⟩ := isWrapped
  have head := headIn_of_expressionIn found (.inr (.inr (expect_eq_some closing).1))
  cases undisturbed with
  | @braces _ _ stop rest waiting alone enclosed visible =>
    cases enclosed.symm.trans head
    obtain ⟨finished, kept⟩ := finished_of_expect closing ends visible
    have stops : Stops (.behind ⟨stop, rest⟩ waiting) := by
      rw [Stops, State.behind, State.facing, finished]
      decide
    have noComma : (Lexeme.next ⟨stop, rest⟩).token ≠ .mark "," := by
      rw [finished]
      decide
    exact ⟨_, expressionIn_of_headIn alone stops noComma, finished, kept.symm.trans settled⟩
  | noBraces _ enclosed => exact absurd head (enclosed span members s)

/-- An object literal with a block comment behind it. -/
def remarkedText : String := "\x7b a: figma.string(\"A\") \x7d /* on */"

def commentedText : String := "\x7b a: figma.string(\"A\") \x7d // on"

/-- The literal and a parenthesis, with a line comment behind them. -/
def closedText : String := "\x7b a: figma.string(\"A\") \x7d) // on"

theorem wrapped_text {front rest : List Char} (shape : text.toList = front ++ rest) :
    (wrapped file text).text = ['('] ++ (front ++ (rest ++ [')'])) := by
  change '(' :: text.toList ++ [')'] = _
  rw [shape, List.cons_append, List.append_assoc]
  rfl

/-- Behind the added parenthesis, each offset between characters has the place that it has in the
text itself, and in both there are not too many lines and columns to be counted. -/
theorem location_wrapped (file text : String) (small : text.utf8ByteSize < 2 ^ 32 - 2)
    {offset : Nat} (isBoundary : (Source.ofString file text).IsBoundary offset) :
    (wrapped file text).location (offset + 1) = (Source.ofString file text).location offset ∧
    (wrapped file text).CountersFit (offset + 1) ∧
    (Source.ofString file text).CountersFit offset := by
  obtain ⟨rest, front, shape, rfl⟩ := isBoundary
  have enclosed : (wrapped file text).text = ['('] ++ (front ++ (rest ++ [')'])) :=
    wrapped_text shape
  have noBreak : '\n' ∉ ['('] := by decide
  have size : Text.byteSize front + 1 = Text.byteSize ['('] + Text.byteSize front :=
    Nat.add_comm _ _
  have part : Text.byteSize front ≤ text.utf8ByteSize := Source.byteSize_le shape
  refine ⟨?_, ?_, Source.countersFit shape (by omega)⟩
  · rw [size, Source.location_of_added noBreak enclosed rfl,
      Source.location_of_base_zero shape rfl]
  · rw [← List.append_assoc] at enclosed
    rw [size, ← Text.byteSize_append]
    apply Source.countersFit enclosed
    rw [Text.byteSize_append, ← size]
    omega

/-- The end of a text that has a line break, a character of two bytes and one of four. -/
theorem location_wrapped_accents :
    "é:\n😀".utf8ByteSize < 2 ^ 32 - 2 ∧
    (Source.ofString "a.tsx" "é:\n😀").IsBoundary 3 ∧
    (Source.ofString "a.tsx" "é:\n😀").IsBoundary 8 ∧
    (wrapped "a.tsx" "é:\n😀").location 4 = (Source.ofString "a.tsx" "é:\n😀").location 3 ∧
    (wrapped "a.tsx" "é:\n😀").location 9 = (Source.ofString "a.tsx" "é:\n😀").location 8 ∧
    (Source.ofString "a.tsx" "é:\n😀").location 3 = ⟨1, 3⟩ ∧
    (Source.ofString "a.tsx" "é:\n😀").location 8 = ⟨2, 2⟩ := by
  have small : "é:\n😀".utf8ByteSize < 2 ^ 32 - 2 := by decide
  have lineEnd : (Source.ofString "a.tsx" "é:\n😀").IsBoundary 3 :=
    ⟨['\n', '😀'], ['é', ':'], by decide, by decide⟩
  have stop : (Source.ofString "a.tsx" "é:\n😀").IsBoundary 8 :=
    ⟨[], ['é', ':', '\n', '😀'], by decide, by decide⟩
  exact ⟨small, lineEnd, stop, (location_wrapped "a.tsx" "é:\n😀" small lineEnd).1,
    (location_wrapped "a.tsx" "é:\n😀" small stop).1, by decide, by decide⟩

end Declaration

end DesignLink
