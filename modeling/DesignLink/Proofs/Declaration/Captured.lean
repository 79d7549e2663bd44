import DesignLink.Proofs.Declaration.Outermost
import DesignLink.Proofs.Declaration.Settings
import DesignLink.Proofs.Declaration.Templates
import DesignLink.Proofs.Layout.Covers
import DesignLink.Proofs.Script.Closing

/-!
Code that is captured from a module as it stands. Behind the colon of a member stands an expression
of its own, and the captured text reaches from the first to the last token of it. Of a method only
the parameters and the body are captured, which are no code of their own. Main statement:
`captured_taken`.
-/

namespace DesignLink

open Script Script.Parser Script.Grammar

namespace Script

variable {source : Source} {e : Expr}

/-- An expression is given for what a parser takes in a source: its text is the first part of what
goes on where the parser starts, and ends with the last token that is taken. -/
structure Expr.TakenFrom (source : Source) (e : Expr) (s s' : State) : Prop where
  stands : s.Stands source
  span : e.span = ⟨s.lexeme.start, s'.previous⟩
  text : (source.textOf e.span).toList <+: s.lexeme.here

def Expr.IsOwn (source : Source) (e : Expr) : Prop :=
  ∃ depth c s s', (rules depth).value c s = some (e, s') ∧ e.TakenFrom source s s'

/-- A method from the mark in front of its parameters or their types on. -/
def Expr.IsMethodRest (source : Source) (e : Expr) : Prop :=
  ∃ depth c form parameters s s',
    methodValue (rules depth) c form s = some ((parameters, e), s') ∧ e.TakenFrom source s s' ∧
      (plainText s.lexeme.token = some "(" ∨ plainText s.lexeme.token = some "<")

theorem Expr.TakenFrom.of_passage {es : List Expr} {s s' : State} (passage : Passage s es s')
    (stands : s.Stands source) (span : e.span = ⟨s.lexeme.start, s'.previous⟩) :
    e.TakenFrom source s s' := by
  obtain ⟨rest, behind⟩ := (passage.rooted source stands.rooted).previous
  exact ⟨stands, span, span ▸ stands.rooted.here.textOf_prefix behind⟩

theorem Expr.ReadBy.isOwn {c : Context} (read : e.ReadBy source (·.value c)) : e.IsOwn source := by
  obtain ⟨depth, s, s', run, stands⟩ := read
  have passage := (orderly_rules depth).assignment c true s stands.placed run
  exact ⟨depth, c, s, s', run, .of_passage passage stands
    ((spanning_rules depth).assignment c true run)⟩

/-- A method has no name and no modifiers: the mark in front of its parameters comes first. -/
theorem plainText_of_functionRest {r : Rules} {c : Context} {form : FunctionForm}
    {parts : List (List Expr) × List Expr} {s s' : State}
    (run : functionRest r c form s = some (parts, s')) :
    plainText s.lexeme.token = some "(" ∨ plainText s.lexeme.token = some "<" := by
  obtain ⟨types, middle, typed, rest⟩ := run_of_bind run
  obtain ⟨angle, _, ate, listed⟩ := run_of_bind typed
  rcases eat_eq_some ate with ⟨-, found, -⟩ | ⟨rfl, -, rfl⟩
  · exact .inr found
  · cases listed
    obtain ⟨parameters, _, read, -⟩ := run_of_bind rest
    obtain ⟨_, _, opened, -⟩ := run_of_bind read
    exact .inl (expect_eq_some opened).1

theorem Expr.IsMethod.rest (isMethod : e.IsMethod source) : e.IsMethodRest source := by
  obtain ⟨depth, c, form, parameters, s, s', run, stands⟩ := isMethod
  have passage := lays_methodValue (orderly_rules depth) c form s stands.placed run
  obtain ⟨_, _, started, rest⟩ := run_of_bind run
  cases started
  obtain ⟨parts, middle, read, made⟩ := run_of_bind rest
  cases made
  exact ⟨depth, c, form, _, s, _, run, .of_passage passage stands rfl,
    plainText_of_functionRest read⟩

theorem Expr.ReadBy.value_of_comma {c : Context} (read : e.ReadBy source (·.comma c)) :
    (∃ c', e.ReadBy source (·.value c')) ∨ ∃ span parts, e = .other span parts := by
  obtain ⟨depth, s, s', run, stands⟩ := read
  cases depth with
  | zero => cases run
  | succ depth =>
    rcases commaRule_eq_some run with value | other
    · exact .inl ⟨_, depth, s, s', value, stands⟩
    · exact .inr other

def Expr.capturedAs? : Expr → Option SnippetKind
  | .markup _ _ => some .jsxElement
  | .function _ _ => some .function
  | .object _ _ => some .object
  | .property _ _ => some .identifier
  | _ => none

end Script

namespace Declaration

variable {source : Source} {module : Module} {e inner : Expr} {kind : SnippetKind}

/-! What is captured, and from where. -/

theorem literalValue_of_capturedAs (captured : e.capturedAs? = some kind) :
    literalValue source e = .ok (.snippet ⟨kind, source.textOf e.span⟩) := by
  cases e <;> cases captured <;> rfl

theorem isCall_of_capturedAs (captured : inner.capturedAs? = some kind)
    (parenthesized : inner.Parenthesized e) : e.isCall = false := by
  cases parenthesized with
  | bare => cases e <;> first | rfl | cases captured
  | group => rfl

theorem gives_of_capturedAs {key : Key} {name : String} {span : Span} {computed : Bool}
    (names : key.Names name) (parenthesized : inner.Parenthesized e)
    (captured : inner.capturedAs? = some kind) :
    Gives source (.field span key computed e)
      (name, .literal (.snippet ⟨kind, source.textOf inner.span⟩)) := by
  refine ⟨span, key, computed, e, rfl, names, ?_⟩
  rw [valueOf_of_not_call (isCall_of_capturedAs captured parenthesized),
    literalValue_of_parenthesized parenthesized, literalValue_of_capturedAs captured]
  rfl

theorem plainValue_ne_snippet (snippet : Snippet) : ∀ e : Expr,
    plainValue source e ≠ .ok (.snippet snippet)
  | .group _ inner => by
    rw [plainValue]
    exact plainValue_ne_snippet snippet inner
  | .ascription _ inner _ => by
    rw [plainValue]
    exact plainValue_ne_snippet snippet inner
  | .identifier span name => by
    rw [plainValue]
    split <;> exact fun same => by cases same
  | .negation span operand => by
    cases operand <;> exact fun same => by cases same
  | .string _ _ | .number _ _ | .boolean _ _ | .template _ _ | .object _ _ | .array _ _
  | .function _ _ | .markup _ _ | .call _ _ _ _ | .property _ _ | .element _ _ _ | .chain _ _
  | .instantiation _ _ _ | .nonNull _ _ | .prefixed _ _ | .logical _ _ _ _ | .assignment _ _ _ _
  | .other _ _ => fun same => by cases same

/-- Code that is captured as it stands is that of the value, without parentheses around it. -/
theorem exists_of_literalValue {snippet : Snippet} (verbatim : snippet.kind ≠ .templateString) :
    ∀ {e : Expr}, literalValue source e = .ok (.snippet snippet) →
      ∃ inner : Expr, inner.Parenthesized e ∧ inner.capturedAs? = some snippet.kind ∧
        source.textOf inner.span = snippet.text
  | .group span e, value => by
    rw [literalValue] at value
    obtain ⟨inner, parenthesized, captured, text⟩ := exists_of_literalValue verbatim value
    exact ⟨inner, .group span parenthesized, captured, text⟩
  | .markup _ _, value | .function _ _, value | .object _ _, value | .property _ _, value => by
    cases value
    exact ⟨_, .bare, rfl, rfl⟩
  | .template _ _, value => by
    cases value
    exact absurd rfl verbatim
  | .string _ _, value | .number _ _, value | .boolean _ _, value | .identifier _ _, value
  | .negation _ _, value | .ascription _ _ _, value | .array _ _, value | .call _ _ _ _, value
  | .element _ _ _, value | .chain _ _, value | .instantiation _ _ _, value | .nonNull _ _, value
  | .prefixed _ _, value | .logical _ _ _ _, value | .assignment _ _ _ _, value
  | .other _ _, value => absurd value (plainValue_ne_snippet snippet _)

theorem isOwn_of_parenthesized (read : Module.read? source.text = some module)
    (captured : inner.capturedAs? = some kind) (parenthesized : inner.Parenthesized e) :
    ∀ {c : Context}, e.ReadBy source (·.comma c) → module.Holds e → inner.IsOwn source := by
  induction parenthesized with
  | bare =>
    intro c between _
    rcases between.value_of_comma with ⟨c', value⟩ | ⟨span, parts, rfl⟩
    · exact value.isOwn
    · cases captured
  | group span _ ih =>
    intro c _ holds
    obtain ⟨c', between⟩ := Module.written_of_read? read holds
    exact ih between (holds.part (List.mem_singleton_self _))

theorem isOwn_or_isMethodRest (read : Module.read? source.text = some module)
    (holds : module.Holds e) (isValue : e.IsValue source)
    (captured : inner.capturedAs? = some kind) (parenthesized : inner.Parenthesized e) :
    inner.IsOwn source ∨ inner.IsMethodRest source := by
  cases parenthesized with
  | bare =>
    cases isValue with
    | own c value => exact .inl value.isOwn
    | method isMethod => exact .inr isMethod.rest
    | name => cases captured
  | group span parenthesized =>
    obtain ⟨c, between⟩ := Module.written_of_read? read holds
    exact .inl (isOwn_of_parenthesized read captured parenthesized between
      (holds.part (List.mem_singleton_self _)))

/-- Code that an entry of a mapping captures as it stands is that of the value of a member: an
expression of its own, or a method from its parameters on. Wherever an expression of this kind has
the captured text, the same code is captured again. -/
def Captures (source : Source) (member : Member) (entry : String × Value) : Prop :=
  ∀ snippet : Snippet, entry.2 = .literal (.snippet snippet) → snippet.kind ≠ .templateString →
    (∃ span key computed e, member = .field span key computed e ∧
      ∃ inner : Expr, inner.Parenthesized e ∧ inner.capturedAs? = some snippet.kind ∧
        source.textOf inner.span = snippet.text ∧
        (inner.IsOwn source ∨ inner.IsMethodRest source)) ∧
    ∀ (other : Source) (e : Expr), e.capturedAs? = some snippet.kind →
      other.textOf e.span = snippet.text → literalValue other e = .ok (.snippet snippet)

/-- The value of a call under the name of its example: a member of an object literal among its
arguments. -/
def IsExample (call value : Expr) : Prop :=
  ∃ span callee types arguments objectSpan members fieldSpan key computed,
    call = .call span callee types arguments ∧
      .value (.object objectSpan members) ∈ arguments ∧
      .field fieldSpan key computed value ∈ members ∧ settingKey? key = some "example"

/-! Examples of connections. -/

theorem config_of_takeArgument {found taken : ConnectArguments} {item : Item}
    (ok : takeArgument source found item = .ok taken) :
    taken.config = found.config ∨ item.members? = some taken.config := by
  cases object : item.members? with
  | some members =>
    rw [takeArgument_object object] at ok
    cases ok
    exact .inr rfl
  | none =>
    have kept : takeArgument source found item =
        (takeArgument source found item).map fun taken => { taken with config := found.config } :=
      takeArgument_config object found.config
    rw [ok] at kept
    have same : taken = { taken with config := found.config } := Except.ok.inj kept
    rw [same]
    exact .inl rfl

theorem config_of_foldlM {arguments : List Item} {found : ConnectArguments}
    (ok : arguments.foldlM (takeArgument source) ⟨none, none, []⟩ = .ok found) :
    found.config = [] ∨ ∃ item ∈ arguments, item.members? = some found.config := by
  refine holds_of_foldlM (P := fun found => found.config = [] ∨
    ∃ item ∈ arguments, item.members? = some found.config) ?_ (.inl rfl) ok
  intro item among found taken holds ok
  rcases config_of_takeArgument ok with same | config
  · rwa [same]
  · exact .inr ⟨item, among, config⟩

theorem sample_of_takeSetting {connection taken : Connection} {member : Member}
    (ok : takeSetting source connection member = .ok taken) :
    taken.sample = connection.sample ∨ ∃ span key computed value,
      member = .field span key computed value ∧ settingKey? key = some "example" ∧
        taken.sample = some (source.textOf value.span) := by
  rcases takeSetting_cases source member with ⟨problem, fails⟩ | skips | ⟨setting, sets, puts⟩
  · cases (fails connection).symm.trans ok
  · cases (skips connection).symm.trans ok
    exact .inl rfl
  · cases (puts connection).symm.trans ok
    cases sets with
    | sample value named => exact .inr ⟨_, _, _, value, rfl, named, rfl⟩
    | _ => exact .inl rfl

/-- The sample of a connection is the text of the value under the name of the example. -/
theorem exists_example {members : List Member} {bare connection : Connection} {text : String}
    (none_ : bare.sample = none) (ok : members.foldlM (takeSetting source) bare = .ok connection)
    (sample : connection.sample = some text) :
    ∃ span key computed value, .field span key computed value ∈ members ∧
      settingKey? key = some "example" ∧ source.textOf value.span = text := by
  have general : ∀ text, connection.sample = some text →
      ∃ span key computed value, .field span key computed value ∈ members ∧
        settingKey? key = some "example" ∧ source.textOf value.span = text := by
    refine holds_of_foldlM (P := fun connection : Connection => ∀ text,
      connection.sample = some text → ∃ span key computed value,
        .field span key computed value ∈ members ∧ settingKey? key = some "example" ∧
          source.textOf value.span = text) ?_ ?_ ok
    case refine_2 =>
      intro text sample
      cases none_.symm.trans sample
    case refine_1 =>
      intro member among connection taken holds ok text sample
      rcases sample_of_takeSetting ok with same | ⟨span, key, computed, value, rfl, named, shown⟩
      · exact holds text (same.symm.trans sample)
      · cases shown.symm.trans sample
        exact ⟨span, key, computed, value, among, named, rfl⟩
  exact general text sample

theorem exists_of_sample {call : Expr} {connection : Connection} {text : String}
    (ok : connectionOfCall source call = .ok connection) (sample : connection.sample = some text) :
    ∃ value, IsExample call value ∧ source.textOf value.span = text := by
  unfold connectionOfCall at ok
  split at ok
  case h_2 => cases ok
  case h_1 span callee types arguments =>
    obtain ⟨found, taken, rest⟩ := exists_of_bind ok
    split at rest
    case h_1 => cases rest
    case h_2 node _ =>
      obtain ⟨fieldSpan, key, computed, value, among, named, shown⟩ :=
        exists_example rfl rest sample
      rcases config_of_foldlM taken with none_ | ⟨item, argument, config⟩
      · rw [none_] at among
        cases among
      · unfold Item.members? at config
        split at config
        case h_2 => cases config
        case h_1 objectSpan members =>
          cases config
          exact ⟨value, ⟨span, callee, types, arguments, objectSpan, _, fieldSpan, key, computed,
            rfl, argument, among, named⟩, shown⟩

theorem isValue_of_isExample {call value : Expr} (read : Module.read? source.text = some module)
    (holds : module.Holds call) (isExample : IsExample call value) : value.IsValue source := by
  obtain ⟨span, callee, types, arguments, objectSpan, members, fieldSpan, key, computed, rfl,
    argument, among, -⟩ := isExample
  have inside : .object objectSpan members ∈ (Expr.call span callee types arguments).parts :=
    List.mem_append_right _ (List.mem_flatMap.mpr ⟨_, argument, List.mem_singleton_self _⟩)
  exact Module.written_of_read? read (holds.part inside) _ among

/-- An object literal with a function, a path in parentheses and a method. -/
def capturedCode : Source := .ofString "a.tsx" "(\x7b a: () => 1, b: (x.y), c() \x7b\x7d \x7d)"

/-- The spans of the code in the only object literal of a module. -/
def capturedSpans? : Module → Option (Span × Span × Span)
  | ⟨[.expression _ (.group _ (.object _ [.field _ (.name _ "a") false (.function a _),
      .field _ (.name _ "b") false (.group _ (.property b _)),
      .field _ (.name _ "c") false (.function c _)]))]⟩ => some (a, b, c)
  | _ => none

end Declaration

end DesignLink
