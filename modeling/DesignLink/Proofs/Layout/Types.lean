import DesignLink.Proofs.Layout.Passages

/-!
Names, patterns, parameters and types give the expressions in them in the order of the text, if the
rules that they lead back to do.
-/

namespace DesignLink.Script

open DesignLink.Script.Parser

/-- The rules are those of the grammar and give expressions in the order of the text. -/
structure Rules.Orderly (r : Rules) : Prop where
  grammar : ∃ depth, r = Grammar.rules depth
  comma : ∀ c, Lays (r.comma c) ([·])
  assignment : ∀ c allowsResult, Lays (r.assignment c allowsResult) ([·])
  binary : ∀ c least, Lays (r.binary c least) ([·])
  unary : ∀ c, Lays (r.unary c) ([·])
  operand : ∀ c, Lays (r.operand c) ([·])
  statement : ∀ c place, Lays (r.statement c place) Statement.parts
  target : ∀ c, Lays (r.target c) id
  type : ∀ c, Lays (r.type c) id
  markup : ∀ c isInside, Lays (r.markup c isInside) ([·])

namespace Grammar

/-! Names, keys and patterns. -/

section Silent

variable (r : Rules) (c : Context)

theorem silent_eatModifier (text : String) (sameLine : Bool) :
    Silent (eatModifier text sameLine) := by
  unfold eatModifier modifies
  refine .of_since fun s => .pass (silent_at? _) fun _ => .pass (silent_wouldRead _) fun _ => ?_
  exact .ite (.pass silent_advance fun _ => .done rfl) (.done rfl)

theorem silent_eatOptional : Silent eatOptional := by
  unfold eatOptional
  exact .of_since fun s => .pass (silent_eat _) fun _ => .done rfl

theorem silent_eatParameterModifiers : Silent (eatParameterModifiers r c) := by
  unfold eatParameterModifiers
  refine .of_since fun s => .pass (silent_collectWhile _ ?_ silent_advance) fun _ => .done rfl
  refine .of_since fun s => .pass (silent_atAny _) fun _ => .ite ?_ (.done rfl)
  exact .last (silent_wouldRead _)

theorem silent_guardedName : Silent (guardedName c) := by
  unfold guardedName
  refine .of_since fun s => .pass (silent_eat _) fun _ => .ite (.done rfl) ?_
  exact .pass (silent_name _) fun _ => .done rfl

theorem silent_dotWord : Silent (do advance; anyWord) :=
  .of_since fun _ => .pass silent_advance fun _ => .last silent_anyWord

theorem silent_qualifiedName : Silent (qualifiedName r c) := by
  unfold qualifiedName
  refine .of_since fun s => .pass (silent_name _) fun _ => ?_
  exact .pass (silent_collectWhile _ (silent_at? _) silent_dotWord) fun _ => .done rfl

theorem lays_undecorated : Lays (pure [] : Parser (List Expr)) id := .of_since fun _ => .done rfl

theorem silent_endTypeMember : Silent endTypeMember := by
  unfold endTypeMember
  refine .of_since fun s => .pass (silent_eat _) fun _ => .ite (.done rfl) ?_
  exact .last silent_endStatement

theorem silent_eatSign : Silent eatSign := by
  unfold eatSign
  refine .of_since fun s => .pass (silent_eat _) fun _ => .ite (.done rfl) ?_
  exact .last (silent_eat _)

theorem silent_mappedHead : Silent (mappedHead c) := by
  unfold mappedHead
  refine .of_since fun s => .pass (silent_expect _) fun _ => .pass silent_eatSign fun _ => ?_
  refine .pass (silent_eat _) fun _ => .pass (silent_require _) fun _ => ?_
  refine .pass (silent_expect _) fun _ => .pass (silent_name _) fun _ => ?_
  exact .last (silent_expect _)

end Silent

variable {r : Rules} (orderly : r.Orderly) (c : Context)
include orderly

theorem lays_value : Lays (r.value c) ([·]) := orderly.assignment c true

theorem lays_memberKey : Lays (memberKey r c) (·.1.parts) := by
  unfold memberKey
  refine .of_start fun s => .pass silent_token fun token => ?_
  split
  · exact .pass silent_advance fun _ => .pass (silent_spanFrom _) fun _ => .done rfl
  · exact .pass silent_advance fun _ => .nodeIn (Expr.string · _) fun _ => ⟨rfl, rfl, rfl, rfl⟩
  · exact .pass silent_advance fun _ => .nodeIn (Expr.number · _) fun _ => ⟨rfl, rfl, rfl, rfl⟩
  · exact .pass silent_advance fun _ => .nodeIn (Expr.other · []) fun _ => ⟨rfl, rfl, rfl, rfl⟩
  · refine .pass (silent_expect _) fun _ => .read (lays_value orderly _) fun _ => ?_
    exact .pass (silent_expect _) fun _ => .done rfl

theorem lays_annotated : Lays ( annotation r c) id := by
  unfold annotation
  exact .of_since fun s => .pass (silent_eat _) fun _ => .ite (.last (orderly.type _)) (.done rfl)

theorem lays_initializer : Lays (initializer r c) id := by
  unfold initializer
  refine .of_since fun s => .pass (silent_eat _) fun _ => .ite ?_ (.done rfl)
  exact .read (lays_value orderly _) fun _ => .done rfl

theorem lays_patternMember : Lays (patternMember r c) id := by
  unfold patternMember
  refine .of_since fun s => .pass (silent_eat _) fun _ => .ite ?_ ?_
  · refine .read (orderly.target _) fun _ => .pass (silent_at? _) fun _ => ?_
    exact .pass (silent_require _) fun _ => .done rfl
  · refine .pass (silent_nameHere? _) fun short => .read (lays_memberKey orderly _) fun key => ?_
    refine .pass (silent_eat _) fun _ => .ite ?_ ?_
    · refine .read (orderly.target _) fun _ => .read (lays_initializer orderly _) fun _ => ?_
      exact .done rfl
    · refine .pass (silent_require _) fun _ => .lastOf (lays_initializer orderly _) fun _ => ?_
      exact List.sublist_append_right _ _

theorem lays_patternItem : Lays (patternItem r c) id := by
  unfold patternItem
  refine .of_since fun s => .pass (silent_at? _) fun _ => .ite (.done rfl) ?_
  refine .pass (silent_eat _) fun _ => .ite ?_ ?_
  · refine .read (orderly.target _) fun _ => .pass (silent_at? _) fun _ => ?_
    exact .pass (silent_require _) fun _ => .done rfl
  · exact .read (orderly.target _) fun _ => .read (lays_initializer orderly _) fun _ => .done rfl

theorem lays_targetRule : Lays (targetRule r c) id := by
  unfold targetRule
  refine .of_since fun s => .pass (silent_eat _) fun _ => .ite ?_ ?_
  · refine .read (lays_listUntil _ _ (lays_patternMember orderly _)) fun _ => ?_
    exact .pass (silent_expect _) fun _ => .done (by simp)
  · refine .pass (silent_eat _) fun _ => .ite ?_ ?_
    · refine .read (lays_listUntil _ _ (lays_patternItem orderly _)) fun _ => ?_
      exact .pass (silent_expect _) fun _ => .done (by simp)
    · exact .pass (silent_name _) fun _ => .done rfl

theorem lays_parameter {decorators : Parser (List Expr)} (decorates : Lays decorators id) :
    Lays (parameter r c decorators) id := by
  unfold parameter
  refine .of_since fun s => .read decorates fun _ => ?_
  refine .pass (silent_eatParameterModifiers _ _) fun _ => .pass (silent_eat _) fun _ => ?_
  refine .pass (silent_eat _) fun _ => .ite (.give ?_) (.read (orderly.target _) fun _ => ?_)
  all_goals
    refine .pass silent_eatOptional fun _ => .read (lays_annotated orderly _) fun _ => ?_
    refine .read (lays_initializer orderly _) fun _ => .pass (silent_at? _) fun _ => ?_
    exact .pass (silent_require _) fun _ => .done (by simp)

theorem lays_parameters {decorators : Parser (List Expr)} (decorates : Lays decorators id) :
    Lays (parameters r c decorators) List.flatten := by
  unfold parameters
  refine .of_since fun s => .pass (silent_expect _) fun _ => ?_
  refine .read (lays_listUntil _ _ (lays_parameter orderly _ decorates)) fun _ => ?_
  exact .pass (silent_expect _) fun _ => .done (by simp)

/-! Pieces of templates. A later piece starts at the closing brace before it, so the next token
starts before the end of the last one until that piece is taken. -/

/-- The piece of a template that is taken next, seen from where the template starts. -/
structure Piece (source : Source) (start : Nat) (l : Lexeme) : Prop where
  after : l.token ≠ .fault → source.GoesOn l.stop l.rest
  start_lt : ∀ isLast isPlain, l.token = .template isLast isPlain → start < l.stop
  closes : ∀ isPlain, l.token = .template true isPlain →
    ∃ closing, source.GoesOn closing ('\x60' :: l.rest) ∧ start < closing ∧ l.stop = closing + 1

/-- The way to a piece of a template that is taken next. -/
structure Reach (s : State) (es : List Expr) (s' : State) : Prop where
  stop_ge : s'.previous ≤ s'.lexeme.stop
  start_le : s.lexeme.start ≤ s'.lexeme.stop
  previous_le : s.previous ≤ s'.previous
  laid : Laid s.lexeme.start s'.previous es
  written : ∀ source : Source, s.Rooted source → ∀ e ∈ es, e.Everywhere (Expr.Written source)
  piece : ∀ source : Source, s.Rooted source → Piece source s.lexeme.start s'.lexeme

/-- The parser has left the first piece of a template, or the last one. -/
def LeavesPiece (s : State) (isLast : Bool) (s' : State) : Prop :=
  ∀ source : Source, s.Rooted source → s.lexeme.start < s'.previous ∧
    (isLast = true → ∃ closing rest, source.GoesOn closing ('\x60' :: rest) ∧
      s.lexeme.start < closing ∧ s'.previous = closing + 1)

omit orderly in
theorem Reach.refl {s : State} (placed : s.Placed) : Reach s [] s where
  stop_ge := Nat.le_trans placed.previous_le placed.start_le
  start_le := placed.start_le
  previous_le := Nat.le_refl _
  laid := .nil
  written _ _ := nofun
  piece _ rooted :=
    { after := fun other => rooted.after (.inl other)
      start_lt := fun isLast isPlain same => (rooted.template isLast isPlain same).start_lt
      closes := fun isPlain same => (rooted.template true isPlain same).closes rfl }

omit orderly in
theorem Reach.advance (s : State) (es : List Expr) (isLast isPlain : Bool) :
    Ensures (fun s' => Reach s es s' ∧ s'.lexeme.token = .template isLast isPlain) advance
      fun _ s' => Passage s es s' ∧ LeavesPiece s isLast s' := by
  rintro s' ⟨reach, token⟩ a s'' run
  have other : s'.lexeme.token ≠ .fault := by
    rw [token]
    nofun
  unfold Parser.advance at run
  split at run
  case h_1 => cases run
  case h_2 =>
    cases run
    have later : s'.lexeme.stop ≤ (Lexeme.next s'.lexeme.after).start :=
      Lexeme.le_start_next s'.lexeme.after
    refine ⟨⟨State.placed_next (Nat.le_refl _), Nat.le_trans reach.start_le later,
      Nat.le_trans reach.previous_le reach.stop_ge,
      reach.laid.mono (Nat.le_refl _) reach.stop_ge, ?_, reach.written⟩, ?_⟩
    · intro source rooted
      have goesOn := (reach.piece source rooted).after other
      exact State.rooted_next goesOn ⟨_, goesOn⟩
    · intro source rooted
      have piece := reach.piece source rooted
      refine ⟨piece.start_lt isLast isPlain token, ?_⟩
      rintro rfl
      obtain ⟨closing, goesOn, behind, ends⟩ := piece.closes isPlain token
      exact ⟨closing, _, goesOn, behind, ends⟩

omit orderly in
theorem Reach.of_piece {s s' : State} {es : List Expr} (passage : Passage s es s')
    (leaves : ∀ source : Source, s.Rooted source → s.lexeme.start < s'.previous)
    {fuel : Nat} {isLast isPlain : Bool} {place : Place}
    (read : Token.scanTemplate fuel s'.lexeme.after = some (isLast, isPlain, place)) :
    Reach s es ⟨{ s'.lexeme with
      token := .template isLast isPlain, stop := place.offset, rest := place.rest },
      s'.lexeme.stop, s'.waiting⟩ := by
  have behind : s'.lexeme.stop ≤ place.offset := (Token.leads_scanTemplate read).le
  have ends : s'.previous ≤ s'.lexeme.stop :=
    Nat.le_trans passage.placed.previous_le passage.placed.start_le
  have starts : s.lexeme.start ≤ s'.lexeme.stop :=
    Nat.le_trans passage.start_le passage.placed.start_le
  refine ⟨behind, Nat.le_trans starts behind, Nat.le_trans passage.previous_le ends,
    passage.laid.mono (Nat.le_refl _) ends, passage.written, fun source rooted => ?_⟩
  have nonempty : s'.lexeme.rest ≠ [] := by
    intro none_
    rw [Lexeme.after, none_] at read
    cases fuel <;> cases read
  have from_ : source.GoesOn s'.lexeme.after.offset s'.lexeme.after.rest :=
    (passage.rooted source rooted).after (.inr nonempty)
  have low : s.lexeme.start < s'.lexeme.stop := Nat.lt_of_lt_of_le (leaves source rooted) ends
  refine ⟨fun _ => (Token.leads_scanTemplate read).goesOn from_, fun _ _ _ =>
    Nat.lt_of_lt_of_le low behind, fun isPlain' same => ?_⟩
  cases same
  obtain ⟨closing, leads, stop⟩ := Token.closes_scanTemplate read
  exact ⟨closing, leads.goesOn from_, Nat.lt_of_lt_of_le low leads.le, stop⟩

omit orderly in
theorem ensures_templateParts {s : State} (isTagged : Bool) {part : Parser (List Expr)}
    (goes : Lays part id) (placed : s.Placed) :
    Ensures (· = s) (templateParts r isTagged part)
      fun parts s' => Passage s parts s' ∧ LeavesPiece s true s' := by
  unfold templateParts
  have pieces (bound : Nat) {step : List Expr → Parser (List Expr ⊕ List Expr)}
      (goes : ∀ found, Ensures (Reach s found) (step found) fun result s' =>
        Sum.elim (Reach s · s') (fun parts => Passage s parts s' ∧ LeavesPiece s true s') result) :
      Ensures (· = s) (iterate step bound [])
        fun parts s' => Passage s parts s' ∧ LeavesPiece s true s' := by
    rintro _ rfl parts s' run
    exact Ensures.iterate (Reach _) goes bound [] (.refl placed) run
  refine pieces _ fun found => ?_
  have look : Ensures (Reach s found) token
      fun token s' => Reach s found s' ∧ s'.lexeme.token = token := by
    intro s' reach token s'' run
    cases run
    exact ⟨reach, rfl⟩
  refine look.bind fun token => ?_
  split
  case h_2 => exact .fail
  case h_1 isLast isPlain =>
    refine Ensures.bind (.look (still_require _)) fun _ => ?_
    refine Ensures.bind (Reach.advance s found isLast isPlain) fun _ => ?_
    split
    case isTrue last =>
      subst last
      exact .pure fun _ left => left
    case isFalse =>
      have part_ : Ensures (fun s' => Passage s found s' ∧ LeavesPiece s isLast s') part
          fun next s' => Passage s (found ++ next) s' ∧
            ∀ source : Source, s.Rooted source → s.lexeme.start < s'.previous := by
        rintro s₁ ⟨passage, leaves⟩ next s₂ run
        have later : Passage s₁ next s₂ := goes s₁ passage.placed run
        exact ⟨passage.trans later, fun source rooted =>
          Nat.lt_of_lt_of_le (leaves source rooted).1 later.previous_le⟩
      refine Ensures.bind part_ fun next => ?_
      refine Ensures.bind (.look (still_at? _)) fun _ => ?_
      refine Ensures.bind (.look (still_require _)) fun _ => ?_
      rintro s₁ ⟨passage, leaves⟩ result s₂ run
      simp only [bind_apply, lexeme, Option.bind_some] at run
      cases read : Token.scanTemplate (s₁.lexeme.rest.length + 1) s₁.lexeme.after with
      | none =>
        rw [read] at run
        cases run
      | some piece =>
        obtain ⟨isLast, isPlain, place⟩ := piece
        rw [read] at run
        cases run
        exact .of_piece passage leaves read

omit orderly in
theorem lays_templateParts (isTagged : Bool) {part : Parser (List Expr)} (goes : Lays part id) :
    Lays (templateParts r isTagged part) id :=
  fun _ placed _ _ run => (ensures_templateParts isTagged goes placed rfl run).1

/-! Types. -/

theorem lays_typeArguments : Lays (typeArguments r c) id := by
  unfold typeArguments
  refine .of_since fun s => .pass silent_splitAngle fun _ => .pass (silent_expect _) fun _ => ?_
  refine .read (lays_separated _ _ (orderly.type _)) fun _ => ?_
  exact .pass (silent_expect _) fun _ => .done (by simp)

theorem lays_optionalTypeArguments : Lays (optionalTypeArguments r c) id := by
  unfold optionalTypeArguments
  refine .of_since fun s => .pass (silent_atAny _) fun _ => .pass silent_onNewLine fun _ => ?_
  exact .ite (.last (lays_typeArguments orderly _)) (.done rfl)

theorem lays_typeParameter : Lays (typeParameter r c) id := by
  have modifiers : Silent (do
      if ← atAny ["const", "in", "out"] then
        wouldRead do
          advance
          require (← atWord)
          require !(← at? "extends")
      else return false) :=
    .of_since fun s => .pass (silent_atAny _) fun _ => .ite (.last (silent_wouldRead _)) (.done rfl)
  unfold typeParameter
  refine .of_since fun s => .pass (silent_collectWhile _ modifiers silent_advance) fun _ => ?_
  refine .pass (silent_name _) fun _ => .pass (silent_eat _) fun _ => ?_
  refine .ite (.read (orderly.type _) fun _ => ?_) (.give ?_)
  all_goals
    refine .pass (silent_eat _) fun _ => ?_
    exact .ite (.read (orderly.type _) fun _ => .done rfl) (.give (.done (by simp)))

theorem lays_typeParameters : Lays (typeParameters r c) id := by
  unfold typeParameters
  refine .of_since fun s => .pass (silent_eat _) fun _ => .ite ?_ (.done rfl)
  refine .read (lays_listUntil _ _ (lays_typeParameter orderly _)) fun _ => ?_
  exact .pass (silent_require _) fun _ => .pass (silent_expect _) fun _ => .done (by simp)

theorem lays_resultType : Lays (resultType r c) id := by
  unfold resultType
  refine .of_since fun s => .pass (silent_wouldRead _) fun _ => ?_
  refine .pass (silent_wouldRead _) fun _ => .ite ?_ (.ite ?_ (.last (orderly.type _)))
  · refine .pass silent_advance fun _ => .pass (silent_guardedName _) fun _ => ?_
    exact .pass (silent_eat _) fun _ => .ite (.last (orderly.type _)) (.done rfl)
  · refine .pass (silent_guardedName _) fun _ => .pass silent_advance fun _ => ?_
    exact .last (orderly.type _)

theorem lays_resultAnnotated : Lays ( resultAnnotation r c) id := by
  unfold resultAnnotation
  refine .of_since fun s => .pass (silent_eat _) fun _ => .ite ?_ (.done rfl)
  exact .last (lays_resultType orderly _)

theorem lays_signature : Lays (signature r c) id := by
  unfold signature
  refine .of_since fun s => .read (lays_typeParameters orderly _) fun _ => ?_
  refine .read (lays_parameters orderly _ lays_undecorated) fun _ => ?_
  exact .read (lays_resultAnnotated orderly _) fun _ => .done rfl

theorem lays_indexSignature : Lays (indexSignature r c) id := by
  unfold indexSignature
  refine .of_since fun s => .pass (silent_expect _) fun _ => .pass (silent_name _) fun _ => ?_
  refine .pass (silent_expect _) fun _ => .read (orderly.type _) fun _ => ?_
  exact .pass (silent_expect _) fun _ => .read (lays_annotated orderly _) fun _ => .done rfl

theorem lays_typeMember : Lays (typeMember r c) id := by
  unfold typeMember
  refine .of_since fun s => .pass (silent_atAny _) fun _ => .pass (silent_wouldRead _) fun _ => ?_
  refine .ite (.read (lays_signature orderly _) fun _ => ?_) (.ite ?_ ?_)
  · exact .pass silent_endTypeMember fun _ => .done rfl
  · refine .pass silent_advance fun _ => .read (lays_signature orderly _) fun _ => ?_
    exact .pass silent_endTypeMember fun _ => .done rfl
  refine .pass (silent_eatModifier _ _) fun _ => .pass (silent_wouldRead _) fun _ => .ite ?_ ?_
  · refine .read (lays_indexSignature orderly _) fun _ => ?_
    exact .pass silent_endTypeMember fun _ => .done rfl
  refine .pass (silent_eatModifier _ _) fun _ => ?_
  refine .ite (.give ?_) (.pass (silent_eatModifier _ _) fun _ => ?_)
  all_goals
    refine .read (lays_memberKey orderly _) fun key => .pass silent_eatOptional fun _ => ?_
    refine .pass (silent_atAny _) fun _ => .ite ?_ ?_
    · refine .read (lays_signature orderly _) fun _ => .give ?_
      exact .pass silent_endTypeMember fun _ => .done rfl
    · refine .read (lays_annotated orderly _) fun _ => .give ?_
      exact .pass silent_endTypeMember fun _ => .done rfl

theorem lays_typeMembers : Lays (typeMembers r c) id := by
  have more : Silent (do return !(← at? "\x7d")) :=
    .of_since fun s => .pass (silent_at? _) fun _ => .done rfl
  unfold typeMembers
  refine .of_since fun s => .pass (silent_expect _) fun _ => ?_
  refine .read (lays_collectWhile _ more (lays_typeMember orderly _)) fun _ => ?_
  exact .pass (silent_expect _) fun _ => .done (by simp)

theorem lays_mappedType : Lays (mappedType r c) id := by
  unfold mappedType
  refine .of_since fun s => .pass (silent_mappedHead _) fun _ => .read (orderly.type _) fun _ => ?_
  refine .pass (silent_eat _) fun _ => .ite (.read (orderly.type _) fun _ => ?_) (.give ?_)
  all_goals
    refine .pass (silent_expect _) fun _ => .pass silent_eatSign fun _ => ?_
    refine .ite (.pass (silent_expect _) fun _ => ?_) (.pass silent_eatOptional fun _ => ?_)
    all_goals
      refine .read (lays_annotated orderly _) fun _ => .pass (silent_eat _) fun _ => ?_
      exact .pass (silent_expect _) fun _ => .done (by simp)

theorem lays_tupleItem : Lays (tupleItem r c) id := by
  unfold tupleItem
  refine .of_since fun s => .pass (silent_eat _) fun _ => .pass (silent_wouldRead _) fun _ => ?_
  refine .ite ?_ ?_
  · refine .pass silent_anyWord fun _ => .pass (silent_eat _) fun _ => ?_
    refine .pass (silent_require _) fun _ => .pass (silent_expect _) fun _ => ?_
    exact .last (orderly.type _)
  · refine .read (orderly.type _) fun _ => .pass (silent_eat _) fun _ => ?_
    exact .pass (silent_require _) fun _ => .done rfl

theorem lays_importType : Lays (importType r c) id := by
  unfold importType
  refine .of_since fun s => .pass (silent_expect _) fun _ => .pass (silent_expect _) fun _ => ?_
  refine .read (orderly.type _) fun _ => .pass (silent_eat _) fun _ => .ite ?_ (.give ?_)
  refine .pass (silent_at? _) fun _ => .ite (.give ?_) (.read (lays_value orderly _) fun _ => ?_)
  rotate_left
  refine .pass (silent_eat _) fun _ => .give ?_
  all_goals
    refine .pass (silent_expect _) fun _ => ?_
    refine .pass (silent_collectWhile _ (silent_at? _) silent_dotWord) fun _ => ?_
    exact .read (lays_optionalTypeArguments orderly _) fun _ => .done (by simp)

theorem lays_typeQuery : Lays (typeQuery r c) id := by
  unfold typeQuery
  refine .of_since fun s => .pass (silent_expect _) fun _ => .pass (silent_at? _) fun _ => ?_
  refine .ite (.last (lays_importType orderly _)) (.pass (silent_eat _) fun _ => ?_)
  refine .ite ?_ (.pass (silent_name _) fun _ => ?_)
  all_goals
    refine .pass (silent_collectWhile _ (silent_at? _) ?_) fun _ =>
      .last (lays_optionalTypeArguments orderly _)
    refine .of_since fun s => .pass silent_advance fun _ => .pass silent_token fun token => ?_
    split
    · exact .last silent_advance
    · exact .pass silent_anyWord fun _ => .done rfl

theorem lays_simpleType : Lays (simpleType r c) id := by
  have named : Lays (do qualifiedName r c; optionalTypeArguments r c) id :=
    .of_since fun s => .pass (silent_qualifiedName _ _) fun _ =>
      .last (lays_optionalTypeArguments orderly _)
  unfold simpleType
  refine .of_since fun s => .pass silent_token fun token => ?_
  split
  case h_1 | h_2 | h_3 => exact .pass silent_advance fun _ => .done rfl
  case h_4 => exact .last (lays_templateParts _ (orderly.type _))
  case h_5 =>
    refine .pass silent_advance fun _ => .pass silent_token fun token => ?_
    split
    case h_3 => exact .fail
    all_goals exact .pass silent_advance fun _ => .done rfl
  case h_6 =>
    refine .pass (silent_wouldRead _) fun _ => .ite ?_ ?_
    · exact .last (lays_mappedType orderly _)
    · exact .last (lays_typeMembers orderly _)
  case h_7 =>
    refine .pass silent_advance fun _ => ?_
    refine .read (lays_listUntil _ _ (lays_tupleItem orderly _)) fun _ => ?_
    exact .pass (silent_expect _) fun _ => .done (by simp)
  case h_8 =>
    refine .pass silent_advance fun _ => .read (orderly.type _) fun _ => ?_
    exact .pass (silent_expect _) fun _ => .done rfl
  case h_9 => exact .last (lays_importType orderly _)
  case h_10 => exact .last (lays_typeQuery orderly _)
  case h_11 => exact .ite (.pass silent_advance fun _ => .done rfl) (.last named)
  case h_12 => exact .last named

theorem lays_postfixType : Lays (postfixType r c) id := by
  have more : Silent (do return !(← onNewLine) && (← at? "[")) :=
    .of_since fun s => .pass silent_onNewLine fun _ => .pass (silent_at? _) fun _ => .done rfl
  have index : Lays (do
      advance
      let index ← if ← at? "]" then pure [] else r.type { c with allowsConditional := true }
      expect "]"
      return index) id := by
    refine .of_since fun s => .pass silent_advance fun _ => .pass (silent_at? _) fun _ => ?_
    refine .ite (.give ?_) (.read (orderly.type _) fun _ => ?_)
    all_goals exact .pass (silent_expect _) fun _ => .done rfl
  unfold postfixType
  refine .of_since fun s => .read (lays_simpleType orderly _) fun _ => ?_
  exact .read (lays_collectWhile _ more index) fun _ => .done (by simp)

theorem lays_inferredType : Lays (inferredType r c) id := by
  have bounds : Lays (do
      expect "extends"
      let bounds ← r.type { c with allowsConditional := false }
      require (!c.allowsConditional || !(← at? "?"))
      return bounds) id := by
    refine .of_since fun s => .pass (silent_expect _) fun _ => .read (orderly.type _) fun _ => ?_
    exact .pass (silent_at? _) fun _ => .pass (silent_require _) fun _ => .done rfl
  unfold inferredType
  refine .of_since fun s => .pass (silent_expect _) fun _ => .pass (silent_name _) fun _ => ?_
  refine .read (lays_attempt bounds) fun found => .done ?_
  cases found <;> rfl

theorem lays_operatorType : Lays (operatorType r c) id := by
  have operators : Silent (do
      if ← atAny ["keyof", "unique", "readonly"] then
        wouldRead do
          advance
          require !(← atAny [",", ";", ")", "]", "\x7d", ">", "=", "|", "&", ".", "?", ":"])
          require !((← token) == .finished)
      else return false) :=
    .of_since fun s => .pass (silent_atAny _) fun _ => .ite (.last (silent_wouldRead _)) (.done rfl)
  unfold operatorType
  refine .of_since fun s => .pass (silent_collectWhile _ operators silent_advance) fun _ => ?_
  refine .pass (silent_wouldRead _) fun _ => .ite ?_ ?_
  · exact .last (lays_inferredType orderly _)
  · exact .last (lays_postfixType orderly _)

theorem lays_intersectionType : Lays (intersectionType r c) id := by
  unfold intersectionType
  refine .of_since fun s => .pass (silent_eat _) fun _ => ?_
  exact .read (lays_separated _ _ (lays_operatorType orderly _)) fun _ => .done (by simp)

theorem lays_unionType : Lays (unionType r c) id := by
  unfold unionType
  refine .of_since fun s => .pass (silent_eat _) fun _ => ?_
  exact .read (lays_separated _ _ (lays_intersectionType orderly _)) fun _ => .done (by simp)

omit orderly in
theorem silent_atFunctionType (r : Rules) (c : Context) : Silent (atFunctionType r c) := by
  unfold atFunctionType atParameters
  refine .of_since fun s => .pass (silent_atAny _) fun _ => .ite (.done rfl) ?_
  refine .pass (silent_at? _) fun _ => .ite ?_ ?_
  all_goals exact .last (silent_wouldRead _)

theorem lays_functionType : Lays (functionType r c) id := by
  unfold functionType
  refine .of_since fun s => .pass (silent_eat _) fun _ => .pass (silent_eat _) fun _ => ?_
  refine .read (lays_typeParameters orderly _) fun _ => ?_
  refine .read (lays_parameters orderly _ lays_undecorated) fun _ => ?_
  exact .pass (silent_expect _) fun _ => .read (lays_resultType orderly _) fun _ => .done rfl

theorem lays_typeRule : Lays (typeRule r c) id := by
  unfold typeRule
  refine .of_since fun s => .pass (silent_atFunctionType _ _) fun _ => .ite ?_ ?_
  · exact .last (lays_functionType orderly _)
  refine .read (lays_unionType orderly _) fun _ => .pass silent_onNewLine fun _ => ?_
  refine .pass (silent_at? _) fun _ => .ite ?_ (.done rfl)
  refine .pass silent_advance fun _ => .read (orderly.type _) fun _ => ?_
  refine .pass (silent_expect _) fun _ => .read (orderly.type _) fun _ => ?_
  exact .pass (silent_expect _) fun _ => .read (orderly.type _) fun _ => .done rfl

end Grammar

end DesignLink.Script
