import DesignLink.Proofs.Script.Running
import Mathlib.Data.List.Forall2

/-!
Lists of parts with commas between them: a run over the parts is what a bracketed list reads.
-/

namespace DesignLink.Script

/-- What may follow a value: a comma, a closing mark, the next declaration or connection, or the end
of the text. -/
inductive Closes : List Char → Prop where
  | comma (rest : List Char) : Closes (',' :: rest)
  | parenthesis (rest : List Char) : Closes (')' :: rest)
  | bracket (rest : List Char) : Closes (']' :: rest)
  | brace (rest : List Char) : Closes ('\x7d' :: rest)
  | spacedBrace (rest : List Char) : Closes (' ' :: '\x7d' :: rest)
  | constant (rest : List Char) : Closes ("\n\nconst ".toList ++ rest)
  | declaration (rest : List Char) : Closes ("\n\nexport ".toList ++ rest)
  | connection (rest : List Char) : Closes ("\n\nfigma.connect(".toList ++ rest)
  | ending : Closes ['\n']

namespace Closes

open DesignLink.Script.Parser

variable {rest : List Char} (closes : Closes rest)
include closes

theorem stops (previous offset waiting : Nat) :
    Stops (.facing previous ⟨offset, rest⟩ waiting) := by
  cases closes with
  | comma rest => exact (by decide : Token.mark "," ∈ stopTokens)
  | parenthesis rest => exact (by decide : Token.mark ")" ∈ stopTokens)
  | bracket rest => exact (by decide : Token.mark "]" ∈ stopTokens)
  | brace rest => exact (by decide : Token.mark "\x7d" ∈ stopTokens)
  | spacedBrace rest => exact (by decide : Token.mark "\x7d" ∈ stopTokens)
  | constant rest => exact (by decide : Token.word "const" false ∈ stopTokens)
  | declaration rest => exact (by decide : Token.word "export" false ∈ stopTokens)
  | connection rest => exact (by decide : Token.word "figma" false ∈ stopTokens)
  | ending => exact (by decide : Token.finished ∈ stopTokens)

theorem endsName : EndsName rest := by
  cases closes with
  | constant rest =>
    intro c head
    cases head
    decide
  | declaration rest =>
    intro c head
    cases head
    decide
  | connection rest =>
    intro c head
    cases head
    decide
  | _ =>
    intro c head
    cases head
    decide

end Closes

namespace Parser

/-- A run over the parts of a list, up to its closing mark. -/
inductive ListRun {α : Type} (close : String) (part : Parser α) :
    State → List α → State → Prop where
  | done {s} (closed : at? close s = some (true, s)) : ListRun close part s [] s
  | last {s s' a} (opened : at? close s = some (false, s)) (read : part s = some (a, s'))
      (noComma : eat "," s' = some (false, s')) (closed : at? close s' = some (true, s')) :
      ListRun close part s [a] s'
  | more {s s' s'' s''' a as} (opened : at? close s = some (false, s))
      (read : part s = some (a, s')) (comma : eat "," s' = some (true, s''))
      (rest : ListRun close part s'' as s''') : ListRun close part s (a :: as) s'''

/-- A run over parts with nothing between them, as long as there are more. -/
inductive CollectRun {α : Type} (more : Parser Bool) (part : Parser α) :
    State → List α → State → Prop where
  | done {s} (last : more s = some (false, s)) : CollectRun more part s [] s
  | next {s s' s'' a as} (goesOn : more s = some (true, s)) (read : part s = some (a, s'))
      (rest : CollectRun more part s' as s'') : CollectRun more part s (a :: as) s''

variable {α : Type} {close : String} {part : Parser α} {s s' : State} {as : List α}

theorem ListRun.iterate (run : ListRun close part s as s') :
    ∀ (bound : Nat) (found : List α), as.length < bound →
      Parser.iterate (fun found => do
        if ← at? close then return .inr found.reverse
        else
          let next ← part
          let found := next :: found
          if ← eat "," then return .inl found
          else
            require (← at? close)
            return .inr found.reverse) bound found s = some (found.reverse ++ as, s') := by
  induction run with
  | done closed =>
    intro bound found enough
    obtain ⟨bound, rfl⟩ : ∃ less, bound = less + 1 := ⟨bound - 1, by omega⟩
    simp [Parser.iterate, bind_apply, closed, pure_apply]
  | last opened read noComma closed =>
    intro bound found enough
    obtain ⟨bound, rfl⟩ : ∃ less, bound = less + 1 := ⟨bound - 1, by omega⟩
    simp [Parser.iterate, bind_apply, opened, read, noComma, closed, pure_apply, require]
  | @more _ _ _ _ a _ opened read comma rest ih =>
    intro bound found enough
    rw [List.length_cons] at enough
    obtain ⟨bound, rfl⟩ : ∃ less, bound = less + 1 := ⟨bound - 1, by omega⟩
    have later := ih bound (a :: found) (by omega)
    rw [List.reverse_cons, List.append_assoc, List.singleton_append] at later
    simp only [Parser.iterate, bind_apply, opened, read, comma, pure_apply, Option.bind_some,
      Bool.false_eq_true, if_false, if_true]
    exact later

theorem ListRun.listUntil (run : ListRun close part s as s') {bound : Nat}
    (enough : as.length < bound) : listUntil bound close part s = some (as, s') :=
  run.iterate bound [] enough

theorem CollectRun.iterate {more : Parser Bool} (run : CollectRun more part s as s') :
    ∀ (bound : Nat) (found : List α), as.length < bound →
      Parser.iterate (fun found => do
        if ← more then
          let next ← part
          return .inl (next :: found)
        else return .inr found.reverse) bound found s = some (found.reverse ++ as, s') := by
  induction run with
  | done last =>
    intro bound found enough
    obtain ⟨bound, rfl⟩ : ∃ less, bound = less + 1 := ⟨bound - 1, by omega⟩
    simp [Parser.iterate, bind_apply, last, pure_apply]
  | @next _ _ _ a _ goesOn read rest ih =>
    intro bound found enough
    rw [List.length_cons] at enough
    obtain ⟨bound, rfl⟩ : ∃ less, bound = less + 1 := ⟨bound - 1, by omega⟩
    have later := ih bound (a :: found) (by omega)
    rw [List.reverse_cons, List.append_assoc, List.singleton_append] at later
    simp only [Parser.iterate, bind_apply, goesOn, if_true, read, Option.bind_some, pure_apply]
    exact later

theorem CollectRun.collectWhile {more : Parser Bool} (run : CollectRun more part s as s')
    {bound : Nat} (enough : as.length < bound) :
    collectWhile bound more part s = some (as, s') :=
  run.iterate bound [] enough

end Parser

/-! Gaps between parts. -/

def IsGap (gap : List Char) : Prop := ∀ c ∈ gap, c = ' ' ∨ c = '\n'

theorem isGap_nil : IsGap [] := fun _ member => absurd member List.not_mem_nil

theorem skip_gap {gap text : List Char} (isGap : IsGap gap) (starts : StartsToken text) :
    ∀ (newline : Bool) (offset : Nat), Gap.skip .blank newline offset (gap ++ text) =
      some (newline || gap.contains '\n', ⟨offset + Text.byteSize gap, text⟩) := by
  induction gap with
  | nil =>
    intro newline offset
    simpa using starts newline offset
  | cons c gap ih =>
    intro newline offset
    have later := ih fun c member => isGap c (List.mem_cons_of_mem _ member)
    rcases isGap c List.mem_cons_self with rfl | rfl
    · have one : Gap.skip .blank newline offset (' ' :: (gap ++ text)) =
          Gap.skip .blank newline (offset + 1) (gap ++ text) := rfl
      rw [List.cons_append, one, later]
      simp [Nat.add_assoc, show (' ' : Char).utf8Size = 1 from rfl]
    · have one : Gap.skip .blank newline offset ('\n' :: (gap ++ text)) =
          Gap.skip .blank true (offset + 1) (gap ++ text) := rfl
      rw [List.cons_append, one, later]
      simp [Nat.add_assoc, show ('\n' : Char).utf8Size = 1 from rfl]

/-- The state of a parser at a token, behind the end of the one before; the flag says whether a line
ends between them. -/
def State.at (newline : Bool) (previous : Nat) (place : Place) (waiting : Nat) : State :=
  ⟨{ Lexeme.next place with newline := newline }, previous, waiting⟩

theorem State.behind_gap {gap text : List Char} (isGap : IsGap gap) (starts : StartsToken text)
    (offset waiting : Nat) :
    State.behind ⟨offset, gap ++ text⟩ waiting =
      .at (gap.contains '\n') offset ⟨offset + Text.byteSize gap, text⟩ waiting := by
  have here := skip_gap isGap starts false offset
  have there := starts false (offset + Text.byteSize gap)
  simp only [State.behind, State.facing, State.at, Lexeme.next, here, there, Bool.false_or]

theorem State.behind_blank {text : List Char} (starts : StartsToken text) (offset waiting : Nat) :
    State.behind ⟨offset, ' ' :: text⟩ waiting = .facing offset ⟨offset + 1, text⟩ waiting := by
  have blank : Gap.skip .blank false offset (' ' :: text) =
      Gap.skip .blank false (offset + 1) text := rfl
  simp only [State.behind, State.facing, Lexeme.next, blank, starts false (offset + 1)]

theorem State.start_at {text : List Char} (starts : StartsToken text) (newline : Bool)
    (previous offset waiting : Nat) :
    (State.at newline previous ⟨offset, text⟩ waiting).lexeme.start = offset := by
  simp only [State.at, Lexeme.next, starts false offset]

theorem State.start_facing {text : List Char} (starts : StartsToken text)
    (previous offset waiting : Nat) :
    (State.facing previous ⟨offset, text⟩ waiting).lexeme.start = offset := by
  simp only [State.facing, Lexeme.next, starts false offset]

theorem State.facing_eq_at {text : List Char} (starts : StartsToken text)
    (previous offset waiting : Nat) :
    State.facing previous ⟨offset, text⟩ waiting =
      .at false previous ⟨offset, text⟩ waiting := by
  simp only [State.facing, State.at, Lexeme.next, starts false offset]

namespace Parser

/-- The end of a list behind its last part: the closing mark, or a comma before it. -/
inductive ListEnd (close : String) : State → State → Prop where
  | closed {s} (noComma : eat "," s = some (false, s)) (closed : at? close s = some (true, s)) :
      ListEnd close s s
  | comma {s s'} (comma : eat "," s = some (true, s')) (closed : at? close s' = some (true, s')) :
      ListEnd close s s'

theorem ListEnd.run {α : Type} {close : String} {part : Parser α} {s s' s'' : State} {a : α}
    (end_ : ListEnd close s' s'') (opened : at? close s = some (false, s))
    (read : part s = some (a, s')) : ListRun close part s [a] s'' := by
  cases end_ with
  | closed noComma closed => exact .last opened read noComma closed
  | comma comma closed => exact .more opened read comma (.done closed)

/-- Texts with commas and gaps between them, and a tail behind the last. -/
def joined (gap tail : List Char) : List (List Char) → List Char
  | [] => tail
  | [text] => text ++ tail
  | text :: texts => text ++ ',' :: (gap ++ joined gap tail texts)

theorem startsToken_joined {gap tail : List Char} {texts : List (List Char)}
    (nonempty : texts ≠ []) (starts : ∀ text ∈ texts, ∀ rest, StartsToken (text ++ rest)) :
    StartsToken (joined gap tail texts) := by
  match texts, nonempty with
  | [text], _ => exact starts text (by simp) _
  | text :: other :: texts, _ => exact starts text (by simp) _

/-- Texts with a separator of a comma and a gap are texts with commas and gaps between them. -/
theorem intercalate_append (gap tail : List Char) :
    ∀ texts, List.intercalate (',' :: gap) texts ++ tail = joined gap tail texts
  | [] => rfl
  | [text] => by rw [List.intercalate_singleton, joined]
  | text :: other :: texts => by
    have later := intercalate_append gap tail (other :: texts)
    have shape : joined gap tail (text :: other :: texts) =
        text ++ ',' :: (gap ++ joined gap tail (other :: texts)) := rfl
    rw [List.intercalate_cons_cons, shape, ← later]
    simp

theorem length_le_joined {ι : Type} (gap : List Char) {tail : List Char}
    (positive : 1 ≤ tail.length) (text : ι → List Char) :
    ∀ xs : List ι, xs.length ≤ (joined gap tail (xs.map text)).length
  | [] => Nat.zero_le _
  | [x] => by simp [joined]; omega
  | x :: y :: xs => by
    have later := length_le_joined gap positive text (y :: xs)
    simp only [List.map_cons, joined, List.length_append, List.length_cons] at later ⊢
    omega

theorem length_le_of_mem {ι : Type} (gap tail : List Char) (text : ι → List Char) {x : ι} :
    ∀ {xs : List ι}, x ∈ xs → (text x).length ≤ (joined gap tail (xs.map text)).length
  | [only], member => by
    obtain rfl := List.mem_singleton.mp member
    simp [joined]
  | first :: other :: xs, member => by
    simp only [List.map_cons, joined, List.length_append, List.length_cons]
    rcases List.mem_cons.mp member with rfl | later
    · omega
    · have := length_le_of_mem gap tail text later
      rw [List.map_cons] at this
      omega

/-- How a part of a list is read from its text, whatever follows the part. -/
structure ReadsPart {α : Type} (part : Parser α) (close : String) (newline : Bool)
    (text : List Char) (Q : Source → α → Prop) : Prop where
  starts : ∀ rest, StartsToken (text ++ rest)
  opened : ∀ previous offset waiting rest, Closes rest →
    at? close (.at newline previous ⟨offset, text ++ rest⟩ waiting) =
      some (false, .at newline previous ⟨offset, text ++ rest⟩ waiting)
  read : ∀ previous offset waiting rest, Closes rest →
    ∃ a, part (.at newline previous ⟨offset, text ++ rest⟩ waiting) =
        some (a, .behind ⟨offset + Text.byteSize text, rest⟩ waiting) ∧
      ∀ source : Source, source.GoesOn offset (text ++ rest) → Q source a

theorem ReadsPart.imp {α : Type} {part : Parser α} {close : String} {newline : Bool}
    {text : List Char} {Q Q' : Source → α → Prop} (reads : ReadsPart part close newline text Q)
    (weaker : ∀ source a, Q source a → Q' source a) : ReadsPart part close newline text Q' where
  starts := reads.starts
  opened := reads.opened
  read previous offset waiting rest closes := by
    obtain ⟨a, read, meaning⟩ := reads.read previous offset waiting rest closes
    exact ⟨a, read, fun source goesOn => weaker source a (meaning source goesOn)⟩

/-- What may stand behind the last part of a list: it leads to the closing mark and over it. -/
structure ListTail (close : String) (tail : List Char) : Prop where
  closes : ∀ rest, Closes (tail ++ rest)
  leads : ∀ offset waiting rest, ∃ s,
    ListEnd close (.behind ⟨offset, tail ++ rest⟩ waiting) s ∧
      expect close s = some ((), .behind ⟨offset + Text.byteSize tail, rest⟩ waiting)

theorem joined_append (gap tail rest : List Char) :
    ∀ texts, joined gap tail texts ++ rest = joined gap (tail ++ rest) texts
  | [] => rfl
  | [text] => List.append_assoc text tail rest
  | text :: other :: texts => by
    have later := joined_append gap tail rest (other :: texts)
    simp only [joined, List.append_assoc, List.cons_append, later]

variable {α ι : Type} {part : Parser α} {close : String} {opening gap tail : List Char}

theorem listRun_joined (isGap : IsGap gap) (ends : ListTail close tail) (text : ι → List Char)
    (Q : Source → α → ι → Prop) (rest : List Char) :
    ∀ (xs : List ι), xs ≠ [] →
      (∀ x ∈ xs, ReadsPart part close (gap.contains '\n') (text x) (Q · · x)) →
      ∀ previous offset waiting, ∃ parts s,
        ListRun close part (.at (gap.contains '\n') previous
          ⟨offset, joined gap (tail ++ rest) (xs.map text)⟩ waiting) parts s ∧
        expect close s = some ((),
          .behind ⟨offset + Text.byteSize (joined gap tail (xs.map text)), rest⟩ waiting) ∧
        parts.length = xs.length ∧
        ∀ source : Source, source.GoesOn offset (joined gap (tail ++ rest) (xs.map text)) →
          List.Forall₂ (Q source) parts xs
  | [], nonempty, _, _, _, _ => absurd rfl nonempty
  | [x], _, each, previous, offset, waiting => by
    have reads := each x (by simp)
    obtain ⟨a, read, meaning⟩ := reads.read previous offset waiting _ (ends.closes rest)
    obtain ⟨s, end_, close_⟩ := ends.leads (offset + Text.byteSize (text x)) waiting rest
    have run := end_.run (reads.opened previous offset waiting _ (ends.closes rest)) read
    rw [Nat.add_assoc, ← Text.byteSize_append] at close_
    exact ⟨[a], s, run, close_, rfl, fun source goesOn => .cons (meaning source goesOn) .nil⟩
  | x :: y :: xs, _, each, previous, offset, waiting => by
    have reads := each x (by simp)
    obtain ⟨a, read, meaning⟩ := reads.read previous offset waiting
      (',' :: (gap ++ joined gap (tail ++ rest) ((y :: xs).map text))) (.comma _)
    have comma : eat "," (.behind ⟨offset + Text.byteSize (text x),
        ',' :: (gap ++ joined gap (tail ++ rest) ((y :: xs).map text))⟩ waiting) =
        some (true, .behind ⟨offset + Text.byteSize (text x) + 1,
          gap ++ joined gap (tail ++ rest) ((y :: xs).map text)⟩ waiting) := rfl
    have starts : StartsToken (joined gap (tail ++ rest) ((y :: xs).map text)) := by
      apply startsToken_joined (by simp)
      intro piece member
      obtain ⟨z, among, rfl⟩ := List.mem_map.mp member
      exact (each z (List.mem_cons_of_mem _ among)).starts
    obtain ⟨parts, s, run, close_, length, meanings⟩ := listRun_joined isGap ends text Q rest
      (y :: xs) (by simp) (fun z member => each z (List.mem_cons_of_mem _ member))
      (offset + Text.byteSize (text x) + 1)
      (offset + Text.byteSize (text x) + 1 + Text.byteSize gap) waiting
    rw [← State.behind_gap isGap starts] at run
    have shape (end_ : List Char) : joined gap end_ ((x :: y :: xs).map text) =
        text x ++ ',' :: (gap ++ joined gap end_ ((y :: xs).map text)) := rfl
    have size : offset + Text.byteSize (text x) + 1 + Text.byteSize gap +
        Text.byteSize (joined gap tail ((y :: xs).map text)) =
        offset + Text.byteSize (joined gap tail ((x :: y :: xs).map text)) := by
      rw [shape]
      simp only [Text.byteSize_append, Text.byteSize_cons, show (',' : Char).utf8Size = 1 from rfl]
      omega
    rw [size] at close_
    refine ⟨a :: parts, s, .more (reads.opened _ _ _ _ (.comma _)) read comma run, close_,
      by simp [length], ?_⟩
    intro source goesOn
    refine .cons (meaning source goesOn) (meanings source ?_)
    have later := goesOn.behind
    rw [show ',' :: (gap ++ joined gap (tail ++ rest) ((y :: xs).map text)) =
      (',' :: gap) ++ joined gap (tail ++ rest) ((y :: xs).map text) from rfl] at later
    have further := later.behind
    rwa [Text.byteSize_cons, ← Nat.add_assoc] at further

theorem listUntil_joined (opens : IsGap opening) (isGap : IsGap gap)
    (same : opening.contains '\n' = gap.contains '\n') (ends : ListTail close tail)
    (text : ι → List Char) (Q : Source → α → ι → Prop) {xs : List ι} (nonempty : xs ≠ [])
    (each : ∀ x ∈ xs, ReadsPart part close (gap.contains '\n') (text x) (Q · · x))
    {bound : Nat} (enough : xs.length < bound) (offset waiting : Nat) (rest : List Char) :
    ∃ parts s,
      listUntil bound close part (.behind
        ⟨offset, opening ++ joined gap tail (xs.map text) ++ rest⟩ waiting) = some (parts, s) ∧
      expect close s = some ((), .behind
        ⟨offset + Text.byteSize (opening ++ joined gap tail (xs.map text)), rest⟩ waiting) ∧
      ∀ source : Source, source.GoesOn offset (opening ++ joined gap tail (xs.map text) ++ rest) →
        List.Forall₂ (Q source) parts xs := by
  have starts : StartsToken (joined gap (tail ++ rest) (xs.map text)) := by
    apply startsToken_joined (by simpa using nonempty)
    intro piece member
    obtain ⟨z, among, rfl⟩ := List.mem_map.mp member
    exact (each z among).starts
  obtain ⟨parts, s, run, close_, length, meanings⟩ := listRun_joined isGap ends text Q rest xs
    nonempty each offset (offset + Text.byteSize opening) waiting
  rw [← same, ← State.behind_gap opens starts] at run
  rw [Nat.add_assoc, ← Text.byteSize_append] at close_
  rw [List.append_assoc, joined_append]
  exact ⟨parts, s, run.listUntil (by omega), close_,
    fun source goesOn => meanings source goesOn.behind⟩

end Parser

end DesignLink.Script
