import DesignLink.Proofs.Layout.Scanning
import DesignLink.Proofs.Layout.Tree
import DesignLink.Proofs.Script.Running

/-!
Passages of a parser from a state to a later one, with the expressions it finds on the way: they lie
behind each other between the token where it starts and the end of the last token it took. Both
states stand in the same text, and a template among the expressions stands between back quotes.
-/

namespace DesignLink.Script

/-- The next token starts behind the one before it and ends behind its own start. -/
structure State.Placed (s : State) : Prop where
  previous_le : s.previous ≤ s.lexeme.start
  start_le : s.lexeme.start ≤ s.lexeme.stop

theorem State.placed_next {place : Place} {previous waiting : Nat}
    (behind : previous ≤ place.offset) : State.Placed ⟨.next place, previous, waiting⟩ :=
  ⟨Nat.le_trans behind (Lexeme.le_start_next place), Lexeme.start_le_stop_next place⟩

/-- A piece of a template in front of a source, from its opening back quote on. -/
structure Lexeme.OpensTemplate (source : Source) (l : Lexeme) (isLast : Bool) : Prop where
  opens : ∃ rest, l.here = '\x60' :: rest
  start_lt : l.start < l.stop
  closes : isLast = true → ∃ closing, source.GoesOn closing ('\x60' :: l.rest) ∧
    l.start < closing ∧ l.stop = closing + 1

/-- The next token stands in a source, and the one before it ended there. -/
structure State.Rooted (source : Source) (s : State) : Prop where
  previous : ∃ rest, source.GoesOn s.previous rest
  here : source.GoesOn s.lexeme.start s.lexeme.here
  /-- A text that was left open has no end. -/
  after : s.lexeme.token ≠ .fault ∨ s.lexeme.rest ≠ [] →
    source.GoesOn s.lexeme.stop s.lexeme.rest
  mark : ∀ text, s.lexeme.token = .mark text → text.toList <+: s.lexeme.here
  template : ∀ isLast isPlain, s.lexeme.token = .template isLast isPlain →
    s.lexeme.OpensTemplate source isLast

theorem Lexeme.opensTemplate_next {source : Source} {place : Place} {isLast isPlain : Bool}
    (goesOn : source.GoesOn place.offset place.rest)
    (found : (next place).token = .template isLast isPlain) :
    (next place).OpensTemplate source isLast := by
  obtain ⟨rest, fuel, here, read⟩ := exists_of_next_template found
  have opening : source.GoesOn ((next place).start + 1) rest := by
    have start : source.GoesOn (next place).start (next place).here :=
      (leads_next place).goesOn goesOn
    rw [here] at start
    exact start.behind_cons
  refine ⟨⟨rest, here⟩, (Token.leads_scanTemplate read).le, ?_⟩
  rintro rfl
  obtain ⟨closing, leads, ends⟩ := Token.closes_scanTemplate read
  exact ⟨closing, leads.goesOn opening, leads.le, ends⟩

theorem State.rooted_next {source : Source} {place : Place} {previous waiting : Nat}
    (goesOn : source.GoesOn place.offset place.rest)
    (before : ∃ rest, source.GoesOn previous rest) :
    State.Rooted source ⟨.next place, previous, waiting⟩ where
  previous := before
  here := (Lexeme.leads_next place).goesOn goesOn
  after := by
    intro found
    rcases Lexeme.leads_after_next place with leads | ⟨fault, none_⟩
    · exact leads.goesOn ((Lexeme.leads_next place).goesOn goesOn)
    · rcases found with other | some_
      · exact absurd fault other
      · exact absurd none_ some_
  mark _ := Lexeme.prefix_of_next_mark
  template _ _ := Lexeme.opensTemplate_next goesOn

/-- Another mark in place of the current token, which the text starts with as well. -/
theorem State.Rooted.withMark {source : Source} {s : State} (rooted : s.Rooted source) {text : String}
    (begins : text.toList <+: s.lexeme.here) :
    State.Rooted source { s with lexeme := { s.lexeme with
      token := .mark text
      stop := s.lexeme.start + text.utf8ByteSize
      rest := s.lexeme.here.drop text.length } } where
  previous := rooted.previous
  here := rooted.here
  after _ := by
    have leads : s.lexeme.place.Leads _ := Token.leads_mark begins
    exact leads.goesOn rooted.here
  mark _ same := by
    cases same
    exact begins
  template _ _ same := by cases same

/-- A state of a parser somewhere in a source. -/
structure State.Stands (source : Source) (s : State) : Prop where
  placed : s.Placed
  rooted : s.Rooted source

def Expr.Backquoted (source : Source) : Expr → Prop
  | .template span _ =>
    ∃ inner, source.textOf span = String.ofList ('\x60' :: inner ++ ['\x60'])
  | _ => True

/-- A rule of the grammar gives an expression somewhere in a source. -/
def Expr.ReadBy (source : Source) (rule : Rules → Parser Expr) (e : Expr) : Prop :=
  ∃ depth s s', rule (Grammar.rules depth) s = some (e, s') ∧ s.Stands source

/-- The value of a method is given somewhere in a source, behind the name of the method. -/
def Expr.IsMethod (source : Source) (e : Expr) : Prop :=
  ∃ depth c form parameters s s',
    Grammar.methodValue (Grammar.rules depth) c form s = some ((parameters, e), s') ∧
      s.Stands source

/-- What the value of a member is in its source: an expression of its own, a method, or the name of
the member once more. -/
inductive Expr.IsValue (source : Source) : Expr → Prop where
  | own {e : Expr} (c : Context) (read : e.ReadBy source (·.value c)) : IsValue source e
  | method {e : Expr} (isMethod : e.IsMethod source) : IsValue source e
  | name (span : Span) (text : String) : IsValue source (.identifier span text)

def Member.IsWritten (source : Source) : Member → Prop
  | .field _ _ _ value => value.IsValue source
  | .spread _ _ | .initialized _ _ _ => True

/-- What the marks around an expression say of it: there is a template between back quotes, there
are members between braces and there is an expression between parentheses. -/
def Expr.Written (source : Source) : Expr → Prop
  | .template span parts => Expr.Backquoted source (.template span parts)
  | .object _ members => ∀ member ∈ members, member.IsWritten source
  | .group _ inner => ∃ c, inner.ReadBy source (·.comma c)
  | _ => True

/-- Whether there are such marks. -/
def Expr.isDelimited : Expr → Bool
  | .template _ _ | .object _ _ | .group _ _ => true
  | _ => false

theorem Expr.written_of_other {source : Source} {e : Expr} (other : e.isDelimited = false) :
    e.Written source := by
  cases e
  case template | object | group => cases other
  all_goals exact True.intro

/-- The way from a state to a later one, with expressions laid out between them. -/
structure Passage (s : State) (es : List Expr) (s' : State) : Prop where
  placed : s'.Placed
  start_le : s.lexeme.start ≤ s'.lexeme.start
  previous_le : s.previous ≤ s'.previous
  laid : Laid s.lexeme.start s'.previous es
  rooted : ∀ source : Source, s.Rooted source → s'.Rooted source
  written : ∀ source : Source, s.Rooted source → ∀ e ∈ es, e.Everywhere (Expr.Written source)

namespace Passage

variable {s s' s'' : State} {es later : List Expr}

theorem silent (placed : s'.Placed) (start_le : s.lexeme.start ≤ s'.lexeme.start)
    (previous_le : s.previous ≤ s'.previous)
    (rooted : ∀ source : Source, s.Rooted source → s'.Rooted source) : Passage s [] s' :=
  ⟨placed, start_le, previous_le, .nil, rooted, fun _ _ => nofun⟩

theorem refl (placed : s.Placed) : Passage s [] s :=
  silent placed (Nat.le_refl _) (Nat.le_refl _) fun _ rooted => rooted

theorem trans (first : Passage s es s') (last : Passage s' later s'') :
    Passage s (es ++ later) s'' where
  placed := last.placed
  start_le := Nat.le_trans first.start_le last.start_le
  previous_le := Nat.le_trans first.previous_le last.previous_le
  laid := first.laid.append last.laid first.start_le first.placed.previous_le last.previous_le
  rooted source start := last.rooted source (first.rooted source start)
  written source start e member := by
    rcases List.mem_append.mp member with front | back
    · exact first.written source start e front
    · exact last.written source (first.rooted source start) e back

theorem sublist (passage : Passage s es s') (fewer : later.Sublist es) : Passage s later s' :=
  { passage with
    laid := passage.laid.sublist fewer
    written := fun source start e member =>
      passage.written source start e (fewer.subset member) }

theorem opened {e : Expr} (passage : Passage s (e :: es) s') : Passage s (e.parts ++ es) s' :=
  { passage with
    laid := passage.laid.opened
    written := fun source start p member => by
      rcases List.mem_append.mp member with inside | behind
      · exact (passage.written source start e List.mem_cons_self).part inside
      · exact passage.written source start p (List.mem_cons_of_mem e behind) }

theorem node {e : Expr} (passage : Passage s e.parts s')
    (span : e.span = ⟨s.lexeme.start, s'.previous⟩)
    (written : ∀ source, s.Rooted source → e.Written source) : Passage s [e] s' :=
  { passage with
    laid := passage.laid.node (by rw [span]) (by rw [span])
    written := fun source start e' member => by
      obtain rfl := List.mem_singleton.mp member
      exact .intro (written source start) (passage.written source start) }

theorem nodeOf {e : Expr} (other : e.isDelimited = false) (passage : Passage s e.parts s')
    (span : e.span = ⟨s.lexeme.start, s'.previous⟩) : Passage s [e] s' :=
  passage.node span fun _ _ => Expr.written_of_other other

end Passage

namespace Parser

variable {α β : Type}

/-- What holds behind every run of a parser, given what holds before it. -/
def Ensures (before : State → Prop) (p : Parser α) (after : α → State → Prop) : Prop :=
  ∀ ⦃s⦄, before s → ∀ ⦃a s'⦄, p s = some (a, s') → after a s'

namespace Ensures

variable {before : State → Prop} {between : α → State → Prop} {after : β → State → Prop}

theorem bind {p : Parser α} {next : α → Parser β} (first : Ensures before p between)
    (last : ∀ a, Ensures (between a) (next a) after) : Ensures before (p >>= next) after := by
  intro s start b s' run
  rw [bind_apply, Option.bind_eq_some_iff] at run
  obtain ⟨⟨a, middle⟩, ran, rest⟩ := run
  exact last a (first start ran) rest

theorem pure {b : β} (holds : ∀ s, before s → after b s) :
    Ensures before (pure b : Parser β) after := by
  intro s start a s' run
  cases run
  exact holds s start

theorem fail : Ensures before (Parser.fail : Parser β) after := fun _ _ _ _ run => by cases run

theorem ite {condition : Prop} [Decidable condition] {p q : Parser β}
    (yes : Ensures before p after) (no : Ensures before q after) :
    Ensures before (if condition then p else q) after := by
  split
  · exact yes
  · exact no

theorem iterate (keep : α → State → Prop) {step : α → Parser (α ⊕ β)}
    (goes : ∀ a, Ensures (keep a) (step a) fun result s => Sum.elim (keep · s) (after · s) result)
    (bound : Nat) (a : α) : Ensures (keep a) (Parser.iterate step bound a) after := by
  induction bound generalizing a with
  | zero => exact fail
  | succ bound ih =>
    refine bind (goes a) fun result => ?_
    cases result with
    | inl a => exact ih a
    | inr b => exact pure fun _ done => done

end Ensures

/-- The parser does not move. -/
def Still (p : Parser α) : Prop := ∀ ⦃s a s'⦄, p s = some (a, s') → s' = s

theorem Ensures.look {before : State → Prop} {p : Parser α} (still : Still p) :
    Ensures before p fun _ => before := fun _ holds _ _ run => still run ▸ holds

/-- The parser goes forward, with the expressions of its result laid out on the way. -/
def Lays (p : Parser α) (parts : α → List Expr) : Prop :=
  ∀ s, s.Placed → ∀ ⦃a s'⦄, p s = some (a, s') → Passage s (parts a) s'

/-- The parser goes forward and gives no expressions. -/
abbrev Silent (p : Parser α) : Prop := Lays p fun _ => []

/-- The parser goes on with a passage that has some expressions so far. -/
def Since (s : State) (found : List Expr) (p : Parser α) (parts : α → List Expr) : Prop :=
  Ensures (Passage s found) p fun a => Passage s (parts a)

variable {s : State} {found : List Expr} {p : Parser α} {next : α → Parser β}
  {parts : α → List Expr} {after : β → List Expr}

theorem Lays.of_since (goes : ∀ s, Since s [] p parts) : Lays p parts :=
  fun s placed _ _ run => goes s (.refl placed) run

theorem Ensures.of_lexeme {next : Lexeme → Parser β} {after : β → State → Prop}
    (goes : Ensures (· = s) (next s.lexeme) after) : Ensures (· = s) (lexeme >>= next) after := by
  rintro _ rfl b s' run
  exact goes rfl run

theorem Lays.of_lexeme {next : Lexeme → Parser β}
    (goes : ∀ s : State, s.Placed → Ensures (· = s) (next s.lexeme) fun b => Passage s (after b)) :
    Lays (lexeme >>= next) after :=
  fun s placed => Ensures.of_lexeme (goes s placed) rfl

theorem Lays.of_token {next : Token → Parser β}
    (goes : ∀ s : State, s.Placed →
      Ensures (· = s) (next s.lexeme.token) fun b => Passage s (after b)) :
    Lays (token >>= next) after := by
  intro s placed b s' run
  exact goes s placed rfl run

theorem Lays.of_start {next : Nat → Parser β}
    (goes : ∀ s : State, Since s [] (next s.lexeme.start) after) : Lays (start >>= next) after :=
  fun s placed _ _ run => goes s (.refl placed) run

/-- What a parser gives has a property, where it stands in a source. -/
def Shows (source : Source) (P : α → Prop) (p : Parser α) : Prop :=
  Ensures (State.Stands source) p fun a _ => P a

section Shows

variable {source : Source} {P : α → Prop} {Q : β → Prop}

theorem Lays.stands (goes : Lays p parts) :
    Ensures (State.Stands source) p fun _ => State.Stands source := by
  intro s stands a s' run
  have passage := goes s stands.placed run
  exact ⟨passage.placed, passage.rooted source stands.rooted⟩

theorem Shows.taken (first : Lays p parts)
    (last : ∀ a s s', s.Stands source → p s = some (a, s') → Shows source Q (next a)) :
    Shows source Q (p >>= next) := by
  intro s stands b s' run
  obtain ⟨a, middle, ran, rest⟩ := run_of_bind run
  exact last a s middle stands ran (first.stands stands ran) rest

theorem Shows.behind (first : Lays p parts) (last : ∀ a, Shows source Q (next a)) :
    Shows source Q (p >>= next) :=
  first.stands.bind last

theorem Shows.pure {a : α} (holds : P a) : Shows source P (pure a) := Ensures.pure fun _ _ => holds

theorem Shows.ite {condition : Prop} [Decidable condition] {p q : Parser α}
    (yes : Shows source P p) (no : Shows source P q) :
    Shows source P (if condition then p else q) := Ensures.ite yes no

end Shows

namespace Since

theorem read (first : Lays p parts) (last : ∀ a, Since s (found ++ parts a) (next a) after) :
    Since s found (p >>= next) after :=
  Ensures.bind (fun _ passage _ _ run => passage.trans (first _ passage.placed run)) last

theorem pass (first : Silent p) (last : ∀ a, Since s found (next a) after) :
    Since s found (p >>= next) after :=
  read first fun a => by simpa using last a

theorem nested {γ : Type} {q : Nat → α → Parser γ} {next : γ → Parser β} {parts : γ → List Expr}
    (goes : Lays (start >>= fun from_ => p >>= q from_) parts)
    (last : ∀ c, Since s (found ++ parts c) (next c) after) :
    Since s found (start >>= fun from_ => p >>= fun a => q from_ a >>= next) after := by
  have same : (start >>= fun from_ => p >>= fun a => q from_ a >>= next) =
      (start >>= fun from_ => p >>= q from_) >>= next := by
    simp only [bind_assoc]
  rw [same]
  exact read goes last

theorem goOn (parts : α → List Expr) (first : Since s found p parts)
    (last : ∀ a, Since s (parts a) (next a) after) : Since s found (p >>= next) after :=
  Ensures.bind first last

theorem give {a : α} (goes : Since s found (next a) after) :
    Since s found (pure a >>= next) after := goes

theorem lastOf {after : α → List Expr} (goes : Lays p parts)
    (fewer : ∀ a, (after a).Sublist (found ++ parts a)) : Since s found p after := by
  intro _ passage a _ run
  exact (passage.trans (goes _ passage.placed run)).sublist (fewer a)

theorem last (goes : Lays p parts) : Since s found p fun a => found ++ parts a :=
  lastOf goes fun _ => .refl _

theorem lastAs {after : α → List Expr} (goes : Lays p parts)
    (same : ∀ a, found ++ parts a = after a) : Since s found p after :=
  lastOf goes fun a => same a ▸ .refl _

theorem drop {a : α} (fewer : (parts a).Sublist found) : Since s found (pure a) parts :=
  Ensures.pure fun _ passage => passage.sublist fewer

theorem done {a : α} (same : parts a = found) : Since s found (pure a) parts :=
  drop (same ▸ .refl _)

theorem fail : Since s found (fail : Parser α) parts := Ensures.fail

theorem ite {condition : Prop} [Decidable condition] {p q : Parser α}
    (yes : Since s found p parts) (no : Since s found q parts) :
    Since s found (if condition then p else q) parts := by
  split
  · exact yes
  · exact no

theorem spanned {next : Span → Parser β} (goes : ∀ span, Ensures
      (fun s' => Passage s found s' ∧ span = ⟨s.lexeme.start, s'.previous⟩) (next span)
      fun b => Passage s (after b)) :
    Since s found (spanFrom s.lexeme.start >>= next) after := by
  intro s' passage b s'' run
  exact goes _ ⟨passage, rfl⟩ run

theorem around {a : α} {span : Span} (e : Expr) (shows : parts a = [e]) (spans : e.span = span)
    (other : e.isDelimited = false) (inside : e.parts.Sublist found) :
    Ensures (fun s' => Passage s found s' ∧ span = ⟨s.lexeme.start, s'.previous⟩) (pure a)
      fun a => Passage s (parts a) := by
  refine Ensures.pure fun s' taken => ?_
  obtain ⟨passage, covers⟩ := taken
  rw [shows]
  exact (passage.sublist inside).nodeOf other (spans.trans covers)

/-- The end of a rule that gives one expression, with what was found in it and its span. -/
theorem nodeIn {result : Span → α} (make : Span → Expr) (shape : ∀ span,
      parts (result span) = [make span] ∧ (make span).span = span ∧
        (make span).isDelimited = false ∧ (make span).parts = found) :
    Since s found (spanFrom s.lexeme.start >>= fun span => pure (result span)) parts :=
  spanned fun span =>
    let ⟨shows, spans, other, inside⟩ := shape span
    around (make span) shows spans other (inside ▸ .refl _)

theorem node {make : Span → Expr} (shape : ∀ span,
      (make span).span = span ∧ (make span).isDelimited = false ∧ (make span).parts = found) :
    Since s found (spanFrom s.lexeme.start >>= fun span => pure (make span)) ([·]) :=
  nodeIn make fun span => ⟨rfl, shape span⟩

theorem iterate (keep : α → List Expr) {step : α → Parser (α ⊕ β)}
    (goes : ∀ a, Since s (keep a) (step a) (Sum.elim keep after)) (bound : Nat) (a : α) :
    Since s (keep a) (Parser.iterate step bound a) after := by
  refine Ensures.iterate (fun a => Passage s (keep a)) (fun a => ?_) bound a
  intro s' passage result s'' run
  cases result <;> exact goes a passage run

end Since

/-! The moves of a parser. -/

theorem Silent.of_still (still : Still p) : Silent p := by
  intro s placed a s' run
  rw [still run]
  exact .refl placed

theorem still_lexeme : Still lexeme := fun _ _ _ run => by cases run; rfl

theorem still_start : Still start := fun _ _ _ run => by cases run; rfl

theorem still_token : Still token := fun _ _ _ run => by cases run; rfl

theorem still_spanFrom (start : Nat) : Still (spanFrom start) := fun _ _ _ run => by cases run; rfl

theorem still_onNewLine : Still onNewLine := fun _ _ _ run => by cases run; rfl

theorem still_peek (p : Parser α) : Still (peek p) := fun _ _ _ run => by cases run; rfl

theorem still_wouldRead (p : Parser α) : Still (wouldRead p) := fun _ _ _ run => by cases run; rfl

theorem still_at? (text : String) : Still (at? text) := fun _ _ _ run => by cases run; rfl

theorem still_atAny (texts : List String) : Still (atAny texts) :=
  fun _ _ _ run => by cases run; rfl

theorem still_require (condition : Bool) : Still (require condition) := by
  intro s a s' run
  cases condition <;> cases run
  rfl

theorem still_nameHere? (c : Context) : Still (nameHere? c) := by
  intro s a s' run
  unfold nameHere? at run
  split at run <;> cases run <;> rfl

theorem silent_lexeme : Silent lexeme := .of_still still_lexeme

theorem silent_start : Silent start := .of_still still_start

theorem silent_token : Silent token := .of_still still_token

theorem silent_spanFrom (start : Nat) : Silent (spanFrom start) := .of_still (still_spanFrom start)

theorem silent_onNewLine : Silent onNewLine := .of_still still_onNewLine

theorem silent_peek (p : Parser α) : Silent (peek p) := .of_still (still_peek p)

theorem silent_wouldRead (p : Parser α) : Silent (wouldRead p) := .of_still (still_wouldRead p)

theorem silent_at? (text : String) : Silent (at? text) := .of_still (still_at? text)

theorem silent_atAny (texts : List String) : Silent (atAny texts) := .of_still (still_atAny texts)

theorem silent_require (condition : Bool) : Silent (require condition) :=
  .of_still (still_require condition)

theorem silent_nameHere? (c : Context) : Silent (nameHere? c) := .of_still (still_nameHere? c)

theorem silent_addWaiting : Silent addWaiting := by
  intro s placed a s' run
  cases run
  exact .silent ⟨placed.previous_le, placed.start_le⟩ (Nat.le_refl _) (Nat.le_refl _)
    fun _ rooted => { rooted with }

theorem silent_settleWaiting (count : Nat) : Silent (settleWaiting count) := by
  intro s placed a s' run
  cases run
  exact .silent ⟨placed.previous_le, placed.start_le⟩ (Nat.le_refl _) (Nat.le_refl _)
    fun _ rooted => { rooted with }

theorem silent_joinAngle : Silent joinAngle := by
  intro s placed a s' run
  unfold joinAngle at run
  split at run
  · split at run <;> cases run
    case h_1 => exact .refl placed
    case h_2 text found =>
      have begins : text.toList <+: s.lexeme.here :=
        List.isPrefixOf_iff_prefix.mp (List.find?_eq_some_iff_append.mp found).1
      exact .silent ⟨placed.previous_le, Nat.le_add_right _ _⟩ (Nat.le_refl _) (Nat.le_refl _)
        fun _ rooted => rooted.withMark begins
  · cases run
    exact .refl placed

theorem silent_splitAngle : Silent splitAngle := by
  intro s placed a s' run
  unfold splitAngle at run
  split at run <;> cases run
  case h_1 twice =>
    refine .silent ⟨placed.previous_le, Nat.le_add_right _ _⟩ (Nat.le_refl _) (Nat.le_refl _)
      fun _ rooted => rooted.withMark ?_
    exact (List.prefix_append ['<'] ['<']).trans (rooted.mark _ twice)
  case h_2 => exact .refl placed

/-- The parser may go on at a place of the text behind the start of the current token. -/
theorem ensures_moveTo {place : Place} (placed : s.Placed)
    (behind : s.lexeme.start ≤ place.offset)
    (reached : ∀ source : Source, s.Rooted source → source.GoesOn place.offset place.rest) :
    Ensures (· = s) (moveTo place.offset (.next place)) fun _ => Passage s [] := by
  rintro _ rfl a s' run
  cases run
  refine .silent (State.placed_next (Nat.le_refl _))
    (Nat.le_trans behind (Lexeme.le_start_next place)) (Nat.le_trans placed.previous_le behind) ?_
  intro source rooted
  exact State.rooted_next (reached source rooted) ⟨_, reached source rooted⟩

theorem silent_advance : Silent advance := by
  intro s placed a s' run
  unfold advance at run
  split at run
  case h_1 => cases run
  case h_2 other =>
    refine ensures_moveTo placed placed.start_le ?_ rfl run
    exact fun source rooted => rooted.after (.inl other)

theorem silent_eat (text : String) : Silent (eat text) := by
  unfold eat
  refine .of_since fun s => .pass (silent_at? _) fun _ => .ite ?_ (.done rfl)
  exact .pass silent_advance fun _ => .done rfl

theorem silent_expect (text : String) : Silent (expect text) := by
  unfold expect
  refine .of_since fun s => .pass (silent_at? _) fun _ => .ite ?_ .fail
  exact .last silent_advance

theorem silent_atName (c : Context) : Silent (atName c) := by
  unfold atName
  exact .of_since fun s => .pass (silent_nameHere? c) fun _ => .done rfl

theorem silent_name (c : Context) : Silent (name c) := by
  unfold name
  refine .of_since fun s => .pass (silent_nameHere? c) fun found => ?_
  cases found with
  | none => exact .fail
  | some text => exact .pass silent_advance fun _ => .done rfl

theorem silent_anyWord : Silent anyWord := by
  unfold anyWord
  refine .of_since fun s => .pass silent_token fun token => ?_
  split
  · exact .pass silent_advance fun _ => .done rfl
  · exact .fail

theorem silent_endStatement : Silent endStatement := by
  unfold endStatement
  refine .of_since fun s => .pass (silent_eat _) fun _ => .ite (.done rfl) ?_
  refine .pass (silent_at? _) fun _ => .pass silent_onNewLine fun _ => .ite (.done rfl) ?_
  exact .pass silent_token fun _ => .last (silent_require _)

theorem silent_canEndStatement : Silent canEndStatement := by
  unfold canEndStatement
  refine .of_since fun s => .pass (silent_atAny _) fun _ => .pass silent_onNewLine fun _ => ?_
  exact .pass silent_token fun _ => .done rfl

/-! Parsers made of others. -/

theorem lays_attempt (goes : Lays p parts) : Lays (attempt p) (Option.elim · [] parts) := by
  intro s placed a s' run
  unfold attempt at run
  split at run <;> cases run
  case h_1 ran => exact goes s placed ran
  case h_2 => exact .refl placed

theorem lays_orElse {q : Parser α} (first : Lays p parts) (second : Lays q parts) :
    Lays (orElse p q) parts := by
  intro s placed a s' run
  unfold orElse at run
  split at run
  case h_1 ran =>
    cases run
    exact first s placed ran
  case h_2 => exact second s placed run

theorem lays_collectWhile {more : Parser Bool} (bound : Nat) (looks : Silent more)
    (goes : Lays p parts) : Lays (collectWhile bound more p) (·.flatMap parts) := by
  refine .of_since fun s => ?_
  refine .iterate (fun found => found.reverse.flatMap parts) (fun found => ?_) bound []
  refine .pass looks fun _ => .ite ?_ (.done rfl)
  exact .read goes fun a => .done (by simp)

theorem lays_listUntil (bound : Nat) (close : String) (goes : Lays p parts) :
    Lays (listUntil bound close p) (·.flatMap parts) := by
  refine .of_since fun s => ?_
  refine .iterate (fun found => found.reverse.flatMap parts) (fun found => ?_) bound []
  refine .pass (silent_at? _) fun _ => .ite (.done rfl) <| .read goes fun a => ?_
  refine .pass (silent_eat _) fun _ => .ite (.done (by simp)) ?_
  exact .pass (silent_at? _) fun _ => .pass (silent_require _) fun _ => .done (by simp)

theorem lays_separated (bound : Nat) (separator : String) (goes : Lays p parts) :
    Lays (separated bound separator p) (·.flatMap parts) := by
  have later : Lays (do advance; p) parts :=
    .of_since fun s => .pass silent_advance fun _ => .last goes
  unfold separated
  refine .of_since fun s => .read goes fun a => ?_
  exact .read (lays_collectWhile bound (silent_at? _) later) fun _ => .done rfl

theorem silent_collectWhile {more : Parser Bool} (bound : Nat) (looks : Silent more)
    (goes : Silent p) : Silent (collectWhile bound more p) := by
  intro s placed a s' run
  have none : (a.flatMap fun _ => ([] : List Expr)) = [] :=
    List.flatMap_eq_nil_iff.mpr fun _ _ => rfl
  exact none ▸ lays_collectWhile bound looks goes s placed run

theorem silent_listUntil (bound : Nat) (close : String) (goes : Silent p) :
    Silent (listUntil bound close p) := by
  intro s placed a s' run
  have none : (a.flatMap fun _ => ([] : List Expr)) = [] :=
    List.flatMap_eq_nil_iff.mpr fun _ _ => rfl
  exact none ▸ lays_listUntil bound close goes s placed run

theorem shows_listUntil {source : Source} {P : α → Prop} (bound : Nat) (close : String)
    (goes : Lays p parts) (each : Shows source P p) :
    Shows source (fun as => ∀ a ∈ as, P a) (listUntil bound close p) := by
  intro s stands as s' run
  refine (Ensures.iterate (fun found s => State.Stands source s ∧ ∀ a ∈ found, P a) (fun found => ?_)
    bound [] : Ensures _ _ fun as _ => ∀ a ∈ as, P a) ⟨stands, nofun⟩ run
  refine Ensures.bind (.look (still_at? _)) fun _ => .ite (.pure fun _ holds a member => ?_) ?_
  · exact holds.2 a (List.mem_reverse.mp member)
  have first : Ensures (fun s => State.Stands source s ∧ ∀ a ∈ found, P a) p
      fun a s => State.Stands source s ∧ ∀ b ∈ a :: found, P b := fun s holds a s' ran =>
    ⟨goes.stands holds.1 ran, List.forall_mem_cons.mpr ⟨each holds.1 ran, holds.2⟩⟩
  refine first.bind fun a => ?_
  have comma : Ensures (fun s => State.Stands source s ∧ ∀ b ∈ a :: found, P b) (eat ",")
      fun _ s => State.Stands source s ∧ ∀ b ∈ a :: found, P b := fun s holds _ _ ran =>
    ⟨(silent_eat _).stands holds.1 ran, holds.2⟩
  refine comma.bind fun _ => .ite (.pure fun _ holds => holds) ?_
  refine Ensures.bind (.look (still_at? _)) fun _ => Ensures.bind (.look (still_require _)) fun _ =>
    .pure fun _ holds b member => ?_
  exact holds.2 b (List.mem_reverse.mp member)

end Parser

end DesignLink.Script
