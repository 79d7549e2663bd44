import DesignLink.Proofs.Mapping.Rendered

/-!
Texts that are told from their start: whatever stands behind such a text, nothing else has it at the
front. Literals are told where an entry of an object literal goes on or ends.
-/

namespace DesignLink

open Script

/-! Texts that are told from their start. -/

/-- What `a` writes is written by nothing else, whatever stands behind it: it is found at the front
of any text that goes on in a way that is followed. -/
def Told {α : Type} (Writes : α → List Char → Prop) (Follows : List Char → Prop) (a : α) : Prop :=
  ∀ b text text' rest rest', Writes a text → Writes b text' → Follows rest → Follows rest' →
    text ++ rest = text' ++ rest' → a = b ∧ rest = rest'

/-- Whatever is behind the text. -/
abbrev Anything : List Char → Prop := fun _ => True

/-- What is behind an item of a list: a comma or the mark that closes the list. -/
def FollowsItem (close : Char) (rest : List Char) : Prop :=
  ∃ c more, rest = c :: more ∧ (c = ',' ∨ c = close)

theorem quotedChars_append_inj {quote : Char} (isQuote : IsQuote quote) {a b : String}
    {rest rest' : List Char} (same : quotedChars quote a ++ rest = quotedChars quote b ++ rest') :
    a = b ∧ rest = rest' := by
  have read := Lexeme.next_quoted isQuote a 0 rest
  rw [same, Lexeme.next_quoted isQuote b 0 rest'] at read
  have token := congrArg Lexeme.token read
  have behind := congrArg Lexeme.rest read
  exact ⟨(Token.string.inj token).symm, behind.symm⟩

def behindItem (gap : List Char) (close : Char) (texts : List (List Char)) : List Char :=
  if texts = [] then [close] else ',' :: (gap ++ Parser.joined gap [close] texts)

theorem joined_cons (gap : List Char) (close : Char) (text : List Char) (texts : List (List Char)) :
    Parser.joined gap [close] (text :: texts) = text ++ behindItem gap close texts := by
  cases texts with
  | nil => rfl
  | cons other texts => rfl

theorem behindItem_cons (gap : List Char) (close : Char) (text : List Char)
    (texts : List (List Char)) (rest : List Char) : behindItem gap close (text :: texts) ++ rest =
      ',' :: (gap ++ (Parser.joined gap [close] (text :: texts) ++ rest)) := by
  rw [behindItem, if_neg (List.cons_ne_nil text texts), List.cons_append, List.append_assoc]

theorem followsItem_behindItem (gap : List Char) (close : Char) (texts : List (List Char))
    (rest : List Char) : FollowsItem close (behindItem gap close texts ++ rest) := by
  cases texts with
  | nil => exact ⟨close, rest, rfl, .inr rfl⟩
  | cons text texts => exact ⟨',', _, rfl, .inl rfl⟩

section Lists

variable {α : Type} {Writes : α → List Char → Prop} {gap : List Char} {close : Char}

theorem joined_inj (noComma : close ≠ ',')
    (starts : ∀ a text, Writes a text → ∃ c more, text = c :: more ∧ c ≠ close) {items : List α}
    (each : ∀ a ∈ items, Told Writes (FollowsItem close) a) :
    ∀ {others : List α} {texts texts' : List (List Char)} {rest rest' : List Char},
      List.Forall₂ Writes items texts → List.Forall₂ Writes others texts' →
      Parser.joined gap [close] texts ++ rest = Parser.joined gap [close] texts' ++ rest' →
      items = others ∧ rest = rest' := by
  have closed (a : α) (text more rest rest' : List Char) (writes : Writes a text)
      (same : [close] ++ rest = text ++ more ++ rest') : False := by
    obtain ⟨c, after, rfl, other⟩ := starts a text writes
    exact other (List.cons.inj same).1.symm
  induction items with
  | nil =>
    intro others texts texts' rest rest' written written' same
    cases written
    cases written' with
    | nil => exact ⟨rfl, (List.cons.inj same).2⟩
    | cons head tail =>
      rw [joined_cons] at same
      exact (closed _ _ _ _ _ head same).elim
  | cons a items ih =>
    intro others texts texts' rest rest' written written' same
    cases written with
    | cons head tail =>
      cases written' with
      | nil =>
        rw [joined_cons] at same
        exact (closed _ _ _ _ _ head same.symm).elim
      | cons head' tail' =>
        rw [joined_cons, joined_cons, List.append_assoc, List.append_assoc] at same
        obtain ⟨rfl, behind⟩ := each a List.mem_cons_self _ _ _ _ _ head head'
          (followsItem_behindItem _ _ _ _) (followsItem_behindItem _ _ _ _) same
        cases tail with
        | nil =>
          cases tail' with
          | nil => exact ⟨rfl, (List.cons.inj behind).2⟩
          | cons next more => exact absurd (List.cons.inj behind).1 noComma
        | cons next more =>
          cases tail' with
          | nil => exact absurd (List.cons.inj behind).1.symm noComma
          | cons next' more' =>
            rw [behindItem_cons, behindItem_cons] at behind
            have later := List.append_cancel_left (List.cons.inj behind).2
            obtain ⟨equal, same⟩ := ih (fun b member => each b (List.mem_cons_of_mem a member))
              (.cons next more) (.cons next' more') later
            exact ⟨congrArg _ equal, same⟩

end Lists

theorem opening_inj {κ : Type} {opening : κ → List Char}
    (separate : ∀ a b, opening a <+: opening b → a = b) {a b : κ} {rest rest' : List Char}
    (same : opening a ++ rest = opening b ++ rest') : a = b ∧ rest = rest' := by
  have first : opening a <+: opening a ++ rest := List.prefix_append _ _
  have second : opening b <+: opening a ++ rest := same ▸ List.prefix_append _ _
  have equal : a = b := by
    cases List.prefix_or_prefix_of_prefix first second with
    | inl shorter => exact separate a b shorter
    | inr shorter => exact (separate b a shorter).symm
  subst equal
  exact ⟨rfl, List.append_cancel_left same⟩

/-! Literals. -/

def Literal.isBare : Literal → Bool
  | .boolean _ | .number _ | .undefined => true
  | .snippet _ | .string _ => false

/-- A character that no list goes on with. -/
def IsUnmarked (c : Char) : Prop := c ≠ ',' ∧ c ≠ '\x7d'

instance (c : Char) : Decidable (IsUnmarked c) := inferInstanceAs (Decidable (_ ∧ _))

theorem isUnmarked_of_all {text : List Char}
    (all : (text.all fun c => decide (IsUnmarked c)) = true) : ∀ c ∈ text, IsUnmarked c :=
  fun c member => of_decide_eq_true (List.all_eq_true.mp all c member)

theorem isUnmarked_of_isDigit {c : Char} (digit : Number.isDigit c = true) : IsUnmarked c := by
  constructor <;> rintro rfl <;> cases digit

theorem isUnmarked_numeral (n : Number.Numeral) : ∀ c ∈ n.text, IsUnmarked c := by
  intro c member
  unfold Number.Numeral.text at member
  split at member
  case isTrue => exact isUnmarked_of_isDigit (n.wholeDigits c member)
  case isFalse =>
    cases List.mem_append.mp member with
    | inl whole => exact isUnmarked_of_isDigit (n.wholeDigits c whole)
    | inr behind =>
      cases List.mem_cons.mp behind with
      | inl point => subst point; decide
      | inr places => exact isUnmarked_of_isDigit (n.placeDigits c places)

theorem format_starts (value : Number) : ∃ c more, value.format.toList = c :: more ∧
    (Number.isDigit c = true ∨ c = '-' ∨ c = 'I' ∨ c = 'N') := by
  cases value with
  | undefined => exact ⟨'N', ['a', 'N'], by decide, by decide⟩
  | infinite negative =>
    cases negative with
    | false => exact ⟨'I', "nfinity".toList, by decide, by decide⟩
    | true => exact ⟨'-', "Infinity".toList, by decide, by decide⟩
  | finite negative m =>
    obtain ⟨n, text, -⟩ := Number.exists_numeral m
    obtain ⟨c, more, shape, digit⟩ := n.text_eq_cons
    rw [Number.format_finite, Number.withSign]
    cases negative with
    | false =>
      rw [if_neg Bool.false_ne_true, ← text]
      exact ⟨c, more, shape, .inl digit⟩
    | true =>
      rw [if_pos rfl, String.toList_append, ← text]
      exact ⟨'-', n.text, by simp, .inr (.inl rfl)⟩

theorem isUnmarked_format (value : Number) : ∀ c ∈ value.format.toList, IsUnmarked c := by
  cases value with
  | undefined => exact isUnmarked_of_all (by decide)
  | infinite negative => cases negative <;> exact isUnmarked_of_all (by decide)
  | finite negative m =>
    obtain ⟨n, text, -⟩ := Number.exists_numeral m
    rw [Number.format_finite, Number.withSign]
    cases negative with
    | false =>
      rw [if_neg Bool.false_ne_true, ← text]
      exact isUnmarked_numeral n
    | true =>
      rw [if_pos rfl, String.toList_append, ← text]
      intro c member
      cases List.mem_append.mp member with
      | inl sign =>
        obtain rfl := List.mem_singleton.mp sign
        decide
      | inr inText => exact isUnmarked_numeral n c inText

variable {l l' : Literal}

theorem isUnmarked_render (bare : l.isBare = true) : ∀ c ∈ l.render.toList, IsUnmarked c := by
  cases l with
  | snippet s => cases bare
  | string text => cases bare
  | boolean value => cases value <;> exact isUnmarked_of_all (by decide)
  | undefined => exact isUnmarked_of_all (by decide)
  | number value => exact isUnmarked_format value

theorem render_starts (bare : l.isBare = true) : ∃ c more, l.render.toList = c :: more ∧
    c ∉ ['_', '\'', '['] ∧ (c = 'f' → l = .boolean false) := by
  cases l with
  | snippet s => cases bare
  | string text => cases bare
  | boolean value =>
    cases value with
    | false => exact ⟨'f', "alse".toList, by decide, by decide, fun _ => rfl⟩
    | true => exact ⟨'t', "rue".toList, by decide, by decide, by decide⟩
  | undefined => exact ⟨'u', "ndefined".toList, by decide, by decide, by decide⟩
  | number value =>
    obtain ⟨c, more, shape, starts⟩ := format_starts value
    have other (d : Char) (noStart : ¬(Number.isDigit d = true ∨ d = '-' ∨ d = 'I' ∨ d = 'N')) :
        c ≠ d := by
      rintro rfl
      exact noStart starts
    refine ⟨c, more, shape, ?_, fun same => absurd same (other 'f' (by decide))⟩
    simp [other '_' (by decide), other '\'' (by decide), other '[' (by decide)]

theorem format_ne {word : String} (noNumber : Number.read? word = none) (value : Number) :
    value.format ≠ word := by
  rintro rfl
  rw [Number.read?_format] at noNumber
  cases noNumber

theorem render_inj_of_bare (bare : l.isBare = true) (bare' : l'.isBare = true)
    (same : l.render = l'.render) : l = l' := by
  cases l with
  | snippet s => cases bare
  | string text => cases bare
  | boolean value =>
    have word : Number.read? (Literal.boolean value).render = none := by
      cases value <;> decide
    cases l' with
    | snippet s => cases bare'
    | string text => cases bare'
    | boolean value' =>
      cases value <;> cases value' <;> first | rfl | exact absurd same (by decide)
    | number value' => exact absurd same.symm (format_ne word value')
    | undefined => cases value <;> exact absurd same (by decide)
  | number value =>
    cases l' with
    | snippet s => cases bare'
    | string text => cases bare'
    | boolean value' =>
      have word : Number.read? (Literal.boolean value').render = none := by
        cases value' <;> decide
      exact absurd same (format_ne word value)
    | number value' => exact congrArg _ (Number.format_injective same)
    | undefined => exact absurd same (format_ne (by decide) value)
  | undefined =>
    cases l' with
    | snippet s => cases bare'
    | string text => cases bare'
    | boolean value' => cases value' <;> exact absurd same (by decide)
    | number value' => exact absurd same.symm (format_ne (by decide) value')
    | undefined => rfl

/-- What stands before the text of a piece of code. -/
def SnippetKind.opening (kind : SnippetKind) : List Char := kind.builder.toList ++ ['(']

theorem toList_render_snippet (s : Snippet) :
    s.render.toList = s.kind.opening ++ (quotedChars '\'' s.text ++ [')']) := by
  simp [Snippet.render, SnippetKind.opening, toList_quotedSingle]

theorem SnippetKind.opening_separate (a b : SnippetKind) (front : a.opening <+: b.opening) :
    a = b := by
  cases a <;> cases b <;> first | rfl | exact absurd front (by decide)

theorem snippet_inj {s s' : Snippet} {rest rest' : List Char}
    (same : s.render.toList ++ rest = s'.render.toList ++ rest') : s = s' ∧ rest = rest' := by
  rw [toList_render_snippet, toList_render_snippet, List.append_assoc _ _ rest,
    List.append_assoc _ _ rest'] at same
  obtain ⟨sameKind, same⟩ := opening_inj SnippetKind.opening_separate same
  rw [List.append_assoc _ _ rest, List.append_assoc _ _ rest'] at same
  obtain ⟨sameText, behind⟩ := quotedChars_append_inj (.inr rfl) same
  have equal : s = s' := by
    obtain ⟨kind, text⟩ := s
    obtain ⟨kind', text'⟩ := s'
    obtain rfl : kind = kind' := sameKind
    obtain rfl : text = text' := sameText
    rfl
  exact ⟨equal, (List.cons.inj behind).2⟩

theorem quoted_starts (quotes : l.isBare = false) : ∃ c more, l.render.toList = c :: more ∧
    ((∃ s, l = .snippet s) ∧ c = '_' ∨ (∃ text, l = .string text) ∧ c = '\'') := by
  cases l with
  | snippet s =>
    have opening : ∃ more, s.kind.opening = '_' :: more := by
      cases s.kind <;> exact ⟨_, rfl⟩
    obtain ⟨more, shape⟩ := opening
    exact ⟨'_', _, by rw [Literal.render, toList_render_snippet, shape]; rfl, .inl ⟨⟨s, rfl⟩, rfl⟩⟩
  | string text => exact ⟨'\'', _, toList_quotedSingle text, .inr ⟨⟨text, rfl⟩, rfl⟩⟩
  | boolean value => cases quotes
  | undefined => cases quotes
  | number value => cases quotes

theorem not_quoted_of_bare (bare : l.isBare = true) (quotes : l'.isBare = false)
    {rest rest' : List Char} : l.render.toList ++ rest ≠ l'.render.toList ++ rest' := by
  obtain ⟨c, more, shape, other, -⟩ := render_starts bare
  obtain ⟨c', more', shape', starts⟩ := quoted_starts quotes
  intro same
  rw [shape, shape'] at same
  obtain rfl : c = c' := (List.cons.inj same).1
  cases starts with
  | inl snippet => exact other (by simp [snippet.2])
  | inr string => exact other (by simp [string.2])

theorem spans_unmarked {text rest : List Char} (unmarked : ∀ c ∈ text, IsUnmarked c)
    (follows : FollowsItem '\x7d' rest) :
    (text ++ rest).takeWhile (fun c => decide (IsUnmarked c)) = text ∧
      (text ++ rest).dropWhile (fun c => decide (IsUnmarked c)) = rest := by
  obtain ⟨c, more, rfl, stops⟩ := follows
  have marked : decide (IsUnmarked c) = false := by
    cases stops with
    | inl comma => subst comma; decide
    | inr brace => subst brace; decide
  have all : ∀ d ∈ text, decide (IsUnmarked d) = true := fun d member =>
    decide_eq_true (unmarked d member)
  rw [List.takeWhile_append_of_pos all, List.dropWhile_append_of_pos all, List.takeWhile_cons,
    List.dropWhile_cons, marked]
  simp

theorem bare_inj (bare : l.isBare = true) (bare' : l'.isBare = true) {rest rest' : List Char}
    (follows : FollowsItem '\x7d' rest) (follows' : FollowsItem '\x7d' rest')
    (same : l.render.toList ++ rest = l'.render.toList ++ rest') : l = l' ∧ rest = rest' := by
  obtain ⟨front, back⟩ := spans_unmarked (isUnmarked_render bare) follows
  obtain ⟨front', back'⟩ := spans_unmarked (isUnmarked_render bare') follows'
  rw [same] at front back
  have equal : l.render = l'.render := String.toList_inj.mp (front.symm.trans front')
  exact ⟨render_inj_of_bare bare bare' equal, back.symm.trans back'⟩

theorem quoted_inj (quotes : l.isBare = false) (quotes' : l'.isBare = false)
    {rest rest' : List Char} (same : l.render.toList ++ rest = l'.render.toList ++ rest') :
    l = l' ∧ rest = rest' := by
  obtain ⟨c, more, shape, starts⟩ := quoted_starts quotes
  obtain ⟨c', more', shape', starts'⟩ := quoted_starts quotes'
  have first := same
  rw [shape, shape'] at first
  obtain rfl : c = c' := (List.cons.inj first).1
  cases starts with
  | inl snippet =>
    obtain ⟨⟨s, rfl⟩, rfl⟩ := snippet
    cases starts' with
    | inr string => cases string.2
    | inl snippet' =>
      obtain ⟨⟨s', rfl⟩, -⟩ := snippet'
      obtain ⟨equal, behind⟩ := snippet_inj same
      exact ⟨congrArg _ equal, behind⟩
  | inr string =>
    obtain ⟨⟨text, rfl⟩, rfl⟩ := string
    cases starts' with
    | inl snippet => cases snippet.2
    | inr string' =>
      obtain ⟨⟨text', rfl⟩, -⟩ := string'
      rw [Literal.render, Literal.render, toList_quotedSingle, toList_quotedSingle] at same
      obtain ⟨equal, behind⟩ := quotedChars_append_inj (.inr rfl) same
      exact ⟨congrArg _ equal, behind⟩

theorem literal_inj {rest rest' : List Char} (follows : FollowsItem '\x7d' rest)
    (follows' : FollowsItem '\x7d' rest')
    (same : l.render.toList ++ rest = l'.render.toList ++ rest') : l = l' ∧ rest = rest' := by
  cases bare : l.isBare with
  | true =>
    cases bare' : l'.isBare with
    | true => exact bare_inj bare bare' follows follows' same
    | false => exact absurd same (not_quoted_of_bare bare bare')
  | false =>
    cases bare' : l'.isBare with
    | true => exact absurd same.symm (not_quoted_of_bare bare' bare)
    | false => exact quoted_inj bare bare' same

end DesignLink
