import DesignLink.Proofs.Layout.Scanning
import DesignLink.Proofs.Script.Running

/-!
A parenthesis put behind a text: it is the next token where the text ends, if it does not get lost
in a line comment that is open there.
-/

namespace DesignLink.Script

open DesignLink.Script.Parser

theorem head_of_scanWord {fuel : Nat} {place place' : Place} {text : List Char} {escaped : Bool}
    (found : Token.scanWord fuel true place = some (text, escaped, place')) :
    ∃ c rest, text = c :: rest ∧ Text.isIdentifierStart c = true := by
  cases fuel with
  | zero => cases found
  | succ fuel =>
    rw [Token.scanWord.eq_def] at found
    simp only [if_true] at found
    split at found
    case h_1 =>
      split at found
      case h_1 c taken rest _ =>
        split at found
        case isTrue part =>
          obtain ⟨⟨later, _, _⟩, -, same⟩ := Option.map_eq_some_iff.mp found
          cases same
          exact ⟨c, later, rfl, part⟩
        case isFalse => cases found
      case h_2 => cases found
    case h_2 => cases found
    case h_3 c rest _ _ _ =>
      split at found
      case isTrue part =>
        obtain ⟨⟨later, _, _⟩, -, same⟩ := Option.map_eq_some_iff.mp found
        cases same
        exact ⟨c, later, rfl, part⟩
      case isFalse => cases found
    case h_4 => cases found

theorem scanMark_eq_some {text : List Char} {mark : String}
    (found : Token.scanMark text = some mark) :
    mark.toList.isPrefixOf text = true := by
  unfold Token.scanMark at found
  split at found
  case h_1 c rest =>
    split at found <;> cases found <;> rfl
  case h_2 => exact (List.find?_eq_some_iff_append.mp found).1

theorem scan_of_plainText {c : Char} (noWord : Text.isIdentifierStart c = false) {place : Place}
    (found : plainText (Token.scan place).1 = some (String.singleton c)) :
    ∃ rest, place.rest = c :: rest := by
  revert found
  unfold Token.scan
  split
  case h_1 => rintro ⟨⟩
  case h_2 | h_3 | h_4 | h_5 => split <;> rintro ⟨⟩
  case h_6 d rest _ _ _ _ same =>
    dsimp only
    split
    case isTrue => split <;> rintro ⟨⟩
    case isFalse =>
      split
      case h_1 mark scanned =>
        intro found
        obtain rfl := Option.some.inj found
        have isPrefix := scanMark_eq_some scanned
        rw [String.toList_singleton, List.isPrefixOf, Bool.and_eq_true, beq_iff_eq] at isPrefix
        exact ⟨rest, by rw [same, isPrefix.1]⟩
      case h_2 =>
        split
        case h_1 text escaped next scanned =>
          obtain ⟨first, later, rfl, starts⟩ := head_of_scanWord scanned
          cases escaped with
          | true => rintro ⟨⟩
          | false =>
            intro found
            have letters := congrArg String.toList (Option.some.inj found)
            rw [String.toList_ofList, String.toList_singleton] at letters
            rw [(List.cons.inj letters).1, noWord] at starts
            cases starts
        case h_2 => rintro ⟨⟩

theorem rest_of_finished {place : Place} (finished : (Token.scan place).1 = .finished) :
    place.rest = [] := by
  revert finished
  unfold Token.scan
  split
  case h_1 nothing => exact fun _ => nothing
  case h_2 | h_3 | h_4 | h_5 => split <;> rintro ⟨⟩
  case h_6 =>
    dsimp only
    split
    case isTrue => split <;> rintro ⟨⟩
    case isFalse =>
      split
      case h_1 => rintro ⟨⟩
      case h_2 => split <;> rintro ⟨⟩

theorem next_of_skip {place place' : Place} {newline : Bool}
    (skipped : Gap.skip .blank false place.offset place.rest = some (newline, place')) :
    Lexeme.next place = ⟨(Token.scan place').1, newline, place'.offset, place'.rest,
      (Token.scan place').2.offset, (Token.scan place').2.rest⟩ := by
  unfold Lexeme.next
  rw [skipped]

theorem skip_of_finished {place : Place} (finished : (Lexeme.next place).token = .finished) :
    ∃ newline offset, Gap.skip .blank false place.offset place.rest =
      some (newline, ⟨offset, []⟩) := by
  unfold Lexeme.next at finished
  split at finished
  case h_1 => cases finished
  case h_2 newline place' skipped =>
    have nothing : place'.rest = [] := rest_of_finished finished
    exact ⟨newline, place'.offset, by rw [skipped, ← nothing]⟩

theorem next_of_plainText {c : Char} (noWord : Text.isIdentifierStart c = false) {place : Place}
    (found : plainText (Lexeme.next place).token = some (String.singleton c)) :
    ∃ newline offset rest, Gap.skip .blank false place.offset place.rest =
      some (newline, ⟨offset, c :: rest⟩) := by
  unfold Lexeme.next at found
  split at found
  case h_1 => cases found
  case h_2 newline place' skipped =>
    obtain ⟨rest, same⟩ := scan_of_plainText noWord found
    exact ⟨newline, place'.offset, rest, by rw [skipped, ← same]⟩

/-! A parenthesis behind a text. -/

/-- The gap in front of a text and the one with a parenthesis behind the text: if the first is not
the whole text, then both end at the same token; otherwise the parenthesis is the next token or
lies in a line comment. -/
inductive SkipsAlike : Option (Bool × Place) → Option (Bool × Place) → Prop where
  | token {newline offset c rest} :
    SkipsAlike (some (newline, ⟨offset, c :: rest⟩))
      (some (newline, ⟨offset, c :: (rest ++ [')'])⟩))
  | parenthesis {newline offset} :
    SkipsAlike (some (newline, ⟨offset, []⟩)) (some (newline, ⟨offset, [')']⟩))
  | comment {newline offset offset'} :
    SkipsAlike (some (newline, ⟨offset, []⟩)) (some (newline, ⟨offset', []⟩))
  | unclosed : SkipsAlike none none

/-- What does not go on with a character does not do so with a parenthesis behind it. -/
theorem not_begins {c first d : Char} {text : List Char} (other : d ≠ ')')
    (absent : ∀ rest, c = first → text = d :: rest → False) :
    ∀ rest, c = first → text ++ [')'] = d :: rest → False := by
  intro rest same begins
  cases text with
  | nil => exact other (List.cons.inj begins).1.symm
  | cons e text => exact absent text same (by rw [(List.cons.inj begins).1])

theorem skipsAlike (gap : Gap) (newline : Bool) (offset : Nat) (text : List Char) :
    SkipsAlike (gap.skip newline offset text) (gap.skip newline offset (text ++ [')'])) := by
  fun_induction Gap.skip gap newline offset text with
  | case1 => exact .unclosed
  | case2 gap newline offset open_ =>
    cases gap with
    | blank => exact .parenthesis
    | line => exact .comment
    | block => exact absurd rfl open_
  | case3 newline offset rest ih | case4 newline offset rest ih | case5 newline offset rest ih =>
    exact ih
  | case6 newline offset c rest noLine noBlock ends ih =>
    rw [List.cons_append, Gap.skip, if_pos ends]
    · exact ih
    · exact not_begins (by decide) noLine
    · exact not_begins (by decide) noBlock
  | case7 newline offset c rest noLine noBlock ends blank ih =>
    rw [List.cons_append, Gap.skip, if_neg ends, if_pos blank]
    · exact ih
    · exact not_begins (by decide) noLine
    · exact not_begins (by decide) noBlock
  | case8 newline offset c rest noLine noBlock ends blank =>
    rw [List.cons_append, Gap.skip, if_neg ends, if_neg blank]
    · exact .token
    · exact not_begins (by decide) noLine
    · exact not_begins (by decide) noBlock
  | case9 newline offset c rest ends ih =>
    rw [List.cons_append, Gap.skip, if_pos ends]
    exact ih
  | case10 newline offset c rest ends ih =>
    rw [List.cons_append, Gap.skip, if_neg ends]
    exact ih
  | case11 newline offset c rest goesOn ih =>
    rw [List.cons_append, Gap.skip]
    · exact ih
    · exact not_begins (by decide) goesOn

variable {offset waiting : Nat} {text : List Char} {s : State}

def Place.InComment (place : Place) : Prop :=
  place.rest ≠ [] ∧ (Lexeme.next place).token = .finished

/-- A parenthesis that ends a text is lost in a comment: behind a place, or behind a parenthesis
of the text itself that follows there, with or without a semicolon. -/
inductive Swallows : Place → Prop where
  | comment {place : Place} (lost : place.InComment) : Swallows place
  | closed {place : Place} (closes : plainText (Lexeme.next place).token = some ")")
      (lost : (Lexeme.next place).after.InComment) : Swallows place
  | ended {place : Place} (closes : plainText (Lexeme.next place).token = some ")")
      (ends : plainText (Lexeme.next (Lexeme.next place).after).token = some ";")
      (lost : (Lexeme.next (Lexeme.next place).after).after.InComment) : Swallows place

/-- Where a text ends, a parenthesis behind it closes, if it is not lost in a comment. -/
theorem expect_of_finished (finished : (Lexeme.next ⟨offset, text⟩).token = .finished)
    (visible : ¬ Place.InComment ⟨offset, text ++ [')']⟩) :
    (Lexeme.next ⟨offset, text ++ [')']⟩).token = .mark ")" ∧
    ∃ stop, ∀ waiting, expect ")" (.behind ⟨offset, text ++ [')']⟩ waiting) =
      some ((), .behind ⟨stop, []⟩ waiting) := by
  obtain ⟨newline, offset', alone⟩ := skip_of_finished finished
  have alike := skipsAlike .blank false offset text
  rw [alone] at alike
  generalize found : Gap.skip .blank false offset (text ++ [')']) = skipped at alike
  cases alike with
  | parenthesis =>
    have next : Lexeme.next ⟨offset, text ++ [')']⟩ = _ := next_of_skip found
    refine ⟨congrArg Lexeme.token next, offset' + 1, fun waiting => ?_⟩
    rw [State.behind, State.facing, next]
    rfl
  | comment =>
    refine absurd ⟨List.append_ne_nil_of_right_ne_nil _ (List.cons_ne_nil _ _), ?_⟩ visible
    rw [next_of_skip found]
    rfl

theorem next_of_concat {c : Char} (noWord : Text.isIdentifierStart c = false) (other : c ≠ ')')
    (scans : ∀ offset rest, (Token.scan ⟨offset, c :: rest⟩).1 = .mark (String.singleton c))
    (found : plainText (Lexeme.next ⟨offset, text ++ [')']⟩).token = some (String.singleton c)) :
    (Lexeme.next ⟨offset, text⟩).token = .mark (String.singleton c) := by
  obtain ⟨newline, offset', rest, enclosed⟩ := next_of_plainText noWord found
  have alike := skipsAlike .blank false offset text
  rw [enclosed] at alike
  generalize alone : Gap.skip .blank false offset text = skipped at alike
  cases alike with
  | token =>
    rw [next_of_skip alone]
    exact scans _ _
  | parenthesis => exact absurd rfl other

/-- A mark of one character in a text with a parenthesis behind it is this parenthesis, or the
parenthesis comes later. -/
theorem after_of_plainText {c : Char} (noWord : Text.isIdentifierStart c = false)
    (scans : ∀ offset rest, Token.scan ⟨offset, c :: rest⟩ =
      (.mark (String.singleton c), ⟨offset + 1, rest⟩))
    (found : plainText (Lexeme.next ⟨offset, text ++ [')']⟩).token = some (String.singleton c)) :
    (c = ')' ∧ (Lexeme.next ⟨offset, text⟩).token = .finished) ∨
      ∃ stop rest, (Lexeme.next ⟨offset, text ++ [')']⟩).after = ⟨stop, rest ++ [')']⟩ := by
  obtain ⟨newline, offset', rest, enclosed⟩ := next_of_plainText noWord found
  have alike := skipsAlike .blank false offset text
  rw [enclosed] at alike
  generalize alone : Gap.skip .blank false offset text = skipped at alike
  cases alike with
  | @token _ _ _ rest =>
    refine .inr ⟨offset' + 1, rest, ?_⟩
    rw [next_of_skip enclosed, Lexeme.after, scans]
  | parenthesis =>
    refine .inl ⟨rfl, ?_⟩
    rw [next_of_skip alone]
    rfl

theorem expect_eq_some {mark : String} {found : Unit} {s' : State}
    (run : expect mark s = some (found, s')) :
    plainText s.lexeme.token = some mark ∧ s' = .behind s.lexeme.after s.waiting := by
  rw [expect, bind_apply, at?, Option.bind_some] at run
  dsimp only at run
  split at run
  case isTrue here =>
    unfold advance at run
    split at run <;> cases run
    exact ⟨by simpa using here, rfl⟩
  case isFalse => cases run

/-- What closes and ends behind a text with a parenthesis behind it is this parenthesis, if it is
not lost in a comment. -/
theorem finished_of_expect
    (closing : expect ")" (.behind ⟨offset, text ++ [')']⟩ waiting) = some ((), s))
    (ends : s.lexeme.token = .finished ∨ plainText s.lexeme.token = some ";" ∧
      (Lexeme.next s.lexeme.after).token = .finished)
    (visible : ¬ Swallows ⟨offset, text ++ [')']⟩) :
    (Lexeme.next ⟨offset, text⟩).token = .finished ∧ s.waiting = waiting := by
  obtain ⟨closes, rfl⟩ := expect_eq_some closing
  refine ⟨?_, rfl⟩
  rcases after_of_plainText (c := ')') rfl (fun _ _ => rfl) closes with ⟨-, finished⟩ | later
  · exact finished
  · obtain ⟨stop, rest, behind⟩ := later
    rcases ends with finished | ⟨semicolon, finished⟩
    · refine absurd (.closed closes ⟨?_, finished⟩) visible
      rw [behind]
      exact List.append_ne_nil_of_right_ne_nil _ (List.cons_ne_nil _ _)
    · have mark : plainText (Lexeme.next ⟨stop, rest ++ [')']⟩).token = some ";" :=
        behind ▸ semicolon
      rcases after_of_plainText (c := ';') rfl (fun _ _ => rfl) mark with ⟨⟨⟩, -⟩ | further
      obtain ⟨stop', rest', behind'⟩ := further
      refine absurd (.ended closes semicolon ⟨?_, finished⟩) visible
      rw [behind, behind']
      exact List.append_ne_nil_of_right_ne_nil _ (List.cons_ne_nil _ _)

end DesignLink.Script
