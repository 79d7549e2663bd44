import DesignLink.Proofs.Script.Calls

/-!
Texts that are no patterns. Behind an opening parenthesis the parameters of an arrow function may
stand, so a text there is first read as a pattern; for these texts that fails.
-/

namespace DesignLink.Script

open DesignLink.Script.Parser DesignLink.Script.Grammar

/-- Read as a pattern, the text goes at most up to a member behind a first part. -/
def NoPattern (text : List Char) : Prop :=
  ∀ depth c previous offset waiting rest, Closes rest → ∀ parts s,
    (rules depth).target c (.facing previous ⟨offset, text ++ rest⟩ waiting) = some (parts, s) →
      s.lexeme.token = .mark "."

section AtMember

variable {s : State} (atMember : s.lexeme.token = .mark ".")
include atMember

theorem notAt_of_atMember {texts : List String} (others : "." ∉ texts) : NotAt texts s := by
  intro text member same
  rw [atMember] at same
  exact others (Option.some.inj same ▸ member)

theorem initializer_of_atMember (r : Rules) (c : Context) : initializer r c s = some ([], s) := by
  have noEquals : eat "=" s = some (false, s) :=
    (notAt_of_atMember atMember (by decide : "." ∉ ["="])).eat (by decide)
  simp [initializer, bind_apply, noEquals, pure_apply]

theorem listUntil_of_atMember {α : Type} {part : Parser α} {bound : Nat} {close : String} {a : α}
    {from_ : State} (noPoint : close ≠ ".") (opened : at? close from_ = some (false, from_))
    (read : part from_ = some (a, s)) : listUntil bound close part from_ = none := by
  have noComma : eat "," s = some (false, s) :=
    (notAt_of_atMember atMember (by decide : "." ∉ [","])).eat (by decide)
  have noClose : at? close s = some (false, s) :=
    (notAt_of_atMember atMember (by simpa using noPoint.symm : "." ∉ [close])).at? (by simp)
  cases bound with
  | zero => rfl
  | succ bound =>
    simp only [listUntil, iterate, bind_apply, opened, read, noComma, noClose, require,
      Option.bind_some, Bool.false_eq_true, if_false]
    rfl

end AtMember

theorem listUntil_of_none {α : Type} {part : Parser α} {bound : Nat} {close : String} {s : State}
    (opened : at? close s = some (false, s)) (read : part s = none) :
    listUntil bound close part s = none := by
  cases bound with
  | zero => rfl
  | succ bound => simp [listUntil, iterate, bind_apply, opened, read]

theorem noPattern_path {head name : String} (isHead : Text.isIdentifier head = true)
    (isName : Text.isIdentifier name = true) (more : List Char) :
    NoPattern (head.toList ++ '.' :: (name.toList ++ more)) := by
  intro depth c previous offset waiting rest _ parts s read
  rw [List.append_assoc, List.cons_append, List.append_assoc] at read
  have ends : EndsName ('.' :: (name.toList ++ (more ++ rest))) := by
    rintro c ⟨⟩
    decide
  rw [State.facing, Lexeme.next_name isHead ends] at read
  cases depth with
  | zero => cases read
  | succ depth =>
    have other {mark : String} (isMark : Text.isIdentifier mark = false) :
        eat mark ⟨⟨.word head false, false, offset,
          head.toList ++ '.' :: (name.toList ++ (more ++ rest)),
          offset + Text.byteSize head.toList, '.' :: (name.toList ++ (more ++ rest))⟩,
          previous, waiting⟩ = some (false, ⟨⟨.word head false, false, offset,
          head.toList ++ '.' :: (name.toList ++ (more ++ rest)),
          offset + Text.byteSize head.toList, '.' :: (name.toList ++ (more ++ rest))⟩,
          previous, waiting⟩) := by
      have different : head ≠ mark := ne_of_isIdentifier isHead isMark
      simp [eat, bind_apply, at?, plainText, different, pure_apply]
    change targetRule (rules depth) c _ = _ at read
    simp only [targetRule, bind_apply, other (by decide : Text.isIdentifier "\x7b" = false),
      other (by decide : Text.isIdentifier "[" = false), Option.bind_some, Bool.false_eq_true,
      if_false, Parser.name, nameHere?] at read
    cases isName_ : Parser.isName c head with
    | false => simp [isName_, fail] at read
    | true =>
      simp only [isName_, if_true, bind_apply, advance, Option.bind_some, pure_apply,
        Option.some.injEq, Prod.mk.injEq] at read
      obtain ⟨-, rfl⟩ := read
      change (Lexeme.next ⟨offset + Text.byteSize head.toList, _⟩).token = _
      rw [Lexeme.next_point isName]

theorem noPattern_quoted {quote : Char} (isQuote : IsQuote quote) (text : String) :
    NoPattern (quotedChars quote text) := by
  intro depth c previous offset waiting rest _ parts s read
  rw [State.facing, Lexeme.next_quoted isQuote] at read
  cases depth with
  | zero => cases read
  | succ depth => cases read

/-- An array with a member behind it is a pattern only up to the member, if its items are none. -/
theorem noPattern_array {ι : Type} (gap : List Char) {name : String}
    (isName : Text.isIdentifier name = true) (more : List Char) (text : ι → List Char)
    (Q : Source → Expr → ι → Prop) (xs : List ι) (each : ∀ x ∈ xs, Reads (text x) (Q · · x))
    (noPatterns : ∀ x ∈ xs, NoPattern (text x)) :
    NoPattern ('[' :: (joined gap [']'] (xs.map text) ++ '.' :: (name.toList ++ more))) := by
  intro depth c previous offset waiting rest closes parts s read
  cases depth with
  | zero => cases read
  | succ depth =>
    change targetRule (rules depth) c _ = _ at read
    have opening : ∀ text, eat "[" (.facing previous ⟨offset, '[' :: text⟩ waiting) =
        some (true, .behind ⟨offset + 1, text⟩ waiting) := fun _ => rfl
    have noBrace : ∀ text, eat "\x7b" (.facing previous ⟨offset, '[' :: text⟩ waiting) =
        some (false, .facing previous ⟨offset, '[' :: text⟩ waiting) := fun _ => rfl
    rw [List.cons_append, List.append_assoc, List.cons_append, List.append_assoc, joined_append]
      at read
    simp only [targetRule, bind_apply, noBrace, opening, Option.bind_some, Bool.false_eq_true,
      if_false, if_true] at read
    cases xs with
    | nil =>
      cases depth with
      | zero => cases read
      | succ depth =>
        obtain ⟨-, rfl⟩ := Prod.mk.inj (Option.some.inj read)
        change (Lexeme.next ⟨offset + 1 + 1, '.' :: (name.toList ++ (more ++ rest))⟩).token = _
        rw [Lexeme.next_point isName]
    | cons x xs =>
      have shape : ∃ after, Closes after ∧ joined gap ([']'] ++ '.' :: (name.toList ++
          (more ++ rest))) ((x :: xs).map text) = text x ++ after := by
        cases xs with
        | nil => exact ⟨_, .bracket _, rfl⟩
        | cons y xs => exact ⟨_, .comma _, rfl⟩
      obtain ⟨after, closes', shape⟩ := shape
      rw [shape] at read
      have first := each x (by simp)
      have marks := first.opens (offset + 1) (offset + 1) waiting after closes'
      have stuck : listUntil (rules depth).bound "]" (patternItem (rules depth) c)
          (.behind ⟨offset + 1, text x ++ after⟩ waiting) = none := by
        have noHole := marks.at? (by decide : "," ∈ listMarks)
        have noRest := marks.eat (by decide : "..." ∈ listMarks)
        have opened := marks.at? (by decide : "]" ∈ listMarks)
        cases found : (rules depth).target c
            (.facing (offset + 1) ⟨offset + 1, text x ++ after⟩ waiting) with
        | none =>
          apply listUntil_of_none opened
          simp [patternItem, bind_apply, noHole, noRest, found]
        | some result =>
          have atMember := noPatterns x (by simp) depth c _ _ waiting after closes' _ _ found
          apply listUntil_of_atMember (a := result.1 ++ []) atMember (by decide) opened
          simp [patternItem, bind_apply, noHole, noRest, found,
            map_apply, initializer_of_atMember atMember]
      rw [stuck] at read
      cases read

theorem target_of_member {written text gap : List Char} {K : Key → Prop}
    {Q : Source → Expr → Prop} (isGap : IsGap gap) (key : ReadsKey written K)
    (value : Reads text Q) (noPattern : NoPattern text) {rest : List Char} (closes : Closes rest)
    (depth : Nat) (c : Context) (previous offset waiting : Nat) :
    (rules depth).target c (.facing previous
      ⟨offset, '\x7b' :: (gap ++ (written ++ ':' :: ' ' :: (text ++ rest)))⟩ waiting) = none := by
  cases depth with
  | zero => rfl
  | succ depth =>
    obtain ⟨token, make, isKey, _, marks, state⟩ := key.read
    have opening : ∀ text, eat "\x7b" (.facing previous ⟨offset, '\x7b' :: text⟩ waiting) =
        some (true, .behind ⟨offset + 1, text⟩ waiting) := fun _ => rfl
    change targetRule (rules depth) c _ = _
    simp only [targetRule, bind_apply, opening, Option.bind_some, if_true]
    rw [State.behind_gap isGap (key.starts _), state]
    generalize offset + 1 + Text.byteSize gap = from_
    generalize gap.contains '\n' = newline
    generalize written ++ ':' :: ' ' :: (text ++ rest) = here
    generalize from_ + Text.byteSize written = stop
    have notAt : NotAt memberMarks
        (atKey token newline from_ here stop (' ' :: (text ++ rest)) (offset + 1) waiting) := marks
    have noRest := notAt.eat (by decide : "..." ∈ memberMarks)
    have opened := notAt.at? (by decide : "\x7d" ∈ memberMarks)
    have key_ : memberKey (rules depth) c
        (atKey token newline from_ here stop (' ' :: (text ++ rest)) (offset + 1) waiting) =
        some ((make ⟨from_, stop⟩, false),
          .facing stop ⟨stop, ':' :: ' ' :: (text ++ rest)⟩ waiting) := by
      cases isKey <;> rfl
    have short : ∃ name?, nameHere? c
        (atKey token newline from_ here stop (' ' :: (text ++ rest)) (offset + 1) waiting) =
        some (name?,
          atKey token newline from_ here stop (' ' :: (text ++ rest)) (offset + 1) waiting) := by
      cases isKey <;> exact ⟨_, rfl⟩
    obtain ⟨name?, short⟩ := short
    have colon : eat ":" (.facing stop ⟨stop, ':' :: ' ' :: (text ++ rest)⟩ waiting) =
        some (true, .facing (stop + 1) ⟨stop + 1 + 1, text ++ rest⟩ waiting) := by
      rw [← State.behind_blank (value.starts rest)]
      rfl
    have stuck : listUntil (rules depth).bound "\x7d" (patternMember (rules depth) c)
        (atKey token newline from_ here stop (' ' :: (text ++ rest)) (offset + 1) waiting) =
        none := by
      cases found : (rules depth).target c
          (.facing (stop + 1) ⟨stop + 1 + 1, text ++ rest⟩ waiting) with
      | none =>
        apply listUntil_of_none opened
        simp [patternMember, bind_apply, noRest, short, key_, colon, found]
      | some result =>
        have atMember := noPattern depth c _ _ waiting rest closes _ _ found
        apply listUntil_of_atMember (a := (make ⟨from_, stop⟩).parts ++ (result.1 ++ [])) atMember
          (by decide) opened
        simp [patternMember, bind_apply, noRest, short, key_, colon, found,
          map_apply, initializer_of_atMember atMember]
    rw [stuck]
    rfl

/-- No arrow function starts with an object literal in parentheses that is no pattern. -/
theorem arrowFunction?_of_noTarget {depth previous offset waiting : Nat} {text : List Char}
    {c : Context} (noTarget : ∀ c,
      (rules depth).target c (.behind ⟨offset + 1, '\x7b' :: text⟩ waiting) = none) :
    arrowFunction? (rules depth) c true
      (.facing previous ⟨offset, '(' :: '\x7b' :: text⟩ waiting) =
      some (none, .facing previous ⟨offset, '(' :: '\x7b' :: text⟩ waiting) := by
  have guess : guessArrow c (.facing previous ⟨offset, '(' :: '\x7b' :: text⟩ waiting) =
      some (.maybe, .facing previous ⟨offset, '(' :: '\x7b' :: text⟩ waiting) := rfl
  have atParenthesis : atAny ["(", "<", "async"]
      (.facing previous ⟨offset, '(' :: '\x7b' :: text⟩ waiting) =
      some (true, .facing previous ⟨offset, '(' :: '\x7b' :: text⟩ waiting) := rfl
  have stuck : parenthesizedArrow (rules depth) c true
      (.facing previous ⟨offset, '(' :: '\x7b' :: text⟩ waiting) = none := by
    have noAsync : eat "async" (.facing previous ⟨offset, '(' :: '\x7b' :: text⟩ waiting) =
        some (false, .facing previous ⟨offset, '(' :: '\x7b' :: text⟩ waiting) := rfl
    have noTypes : typeParameters (rules depth) c
        (.facing previous ⟨offset, '(' :: '\x7b' :: text⟩ waiting) =
        some ([], .facing previous ⟨offset, '(' :: '\x7b' :: text⟩ waiting) := rfl
    have opening : expect "(" (.facing previous ⟨offset, '(' :: '\x7b' :: text⟩ waiting) =
        some ((), .behind ⟨offset + 1, '\x7b' :: text⟩ waiting) := rfl
    have noParameter (c : Context) : parameter (rules depth) c (pure [])
        (.behind ⟨offset + 1, '\x7b' :: text⟩ waiting) = none := by
      have noRest : eat "..." (.behind ⟨offset + 1, '\x7b' :: text⟩ waiting) =
          some (false, .behind ⟨offset + 1, '\x7b' :: text⟩ waiting) := rfl
      have noThis : eat "this" (.behind ⟨offset + 1, '\x7b' :: text⟩ waiting) =
          some (false, .behind ⟨offset + 1, '\x7b' :: text⟩ waiting) := rfl
      cases depth with
      | zero => rfl
      | succ depth =>
        have noModifier : eatParameterModifiers (rules (depth + 1)) c
            (.behind ⟨offset + 1, '\x7b' :: text⟩ waiting) =
            some ((), .behind ⟨offset + 1, '\x7b' :: text⟩ waiting) := rfl
        simp [parameter, bind_apply, pure_apply, noModifier, noRest, noThis, noTarget]
    have list (c : Context) : listUntil (rules depth).bound ")"
        (parameter (rules depth) c (pure [])) (.behind ⟨offset + 1, '\x7b' :: text⟩ waiting) =
        none := listUntil_of_none rfl (noParameter c)
    simp only [parenthesizedArrow, parameters, bind_apply, Parser.start, Option.bind_some, noAsync,
      noTypes, opening, list, Option.bind_none]
  simp [arrowFunction?, bind_apply, atParenthesis, guess, attempt, stuck]

end DesignLink.Script
