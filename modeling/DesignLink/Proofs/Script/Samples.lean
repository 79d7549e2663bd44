import DesignLink.Proofs.Script.Markup

/-!
Functions that give an element of markup, in their text: without parameters, or with `props` for the
attributes of the element.
-/

namespace DesignLink.Script

open DesignLink.Script.Parser DesignLink.Script.Grammar

/-- The attribute `extends` is no bound of a type parameter: an equals sign follows it. -/
theorem behind_extends (offset waiting : Nat) (rest : List Char) :
    ∃ s, eat "extends" (.facing offset ⟨offset + 1, attributeText "extends" ++ rest⟩ waiting) =
        some (true, s) ∧ atAny ["=", ">", "/"] s = some (true, s) := ⟨_, rfl, rfl⟩

section Element

variable {name : String} (isName : Text.isIdentifier name = true)
  (isWord : Parser.isName bodyContext name = true) {attributes : List String}
  (areNames : ∀ property ∈ attributes, Text.isIdentifier property = true)

theorem ends_attributes (rest : List Char) :
    EndsName (attributesText attributes ++ (" />".toList ++ rest)) ∧
      ∀ c ∈ (attributesText attributes ++ (" />".toList ++ rest)).head?, c ≠ '-' := by
  cases attributes with
  | nil => exact ⟨by rintro c ⟨⟩; decide, by rintro c ⟨⟩; decide⟩
  | cons property attributes =>
    rw [attributesText_cons]
    exact ⟨by rintro c ⟨⟩; decide, by rintro c ⟨⟩; decide⟩

theorem length_le_attributesText : ∀ names : List String,
    names.length ≤ (attributesText names).length
  | [] => Nat.le_refl 0
  | name :: names => by
    have later := length_le_attributesText names
    have shape : attributesText (name :: names) = ' ' :: (attributeText name ++ attributesText names) := by
      simp [attributesText]
    rw [shape, List.length_cons, List.length_cons, List.length_append]
    omega

theorem elementText_append (name : String) (attributes : List String) (rest : List Char) :
    elementText name attributes ++ rest =
      '<' :: (name.toList ++ (attributesText attributes ++ (" />".toList ++ rest))) := by
  simp [elementText]

variable (attributes) in
include isName in
theorem behind_angle (offset waiting : Nat) (rest : List Char) :
    (State.behind ⟨offset, name.toList ++ (attributesText attributes ++ (" />".toList ++ rest))⟩
      waiting).lexeme =
      ⟨.word name false, false, offset,
        name.toList ++ (attributesText attributes ++ (" />".toList ++ rest)),
        offset + Text.byteSize name.toList, attributesText attributes ++ (" />".toList ++ rest)⟩ :=
  Lexeme.next_name isName (ends_attributes rest).1 offset

variable (attributes) in
include isName in
theorem facing_element (previous offset waiting : Nat) (rest : List Char) :
    State.facing previous ⟨offset, elementText name attributes ++ rest⟩ waiting =
      ⟨⟨.mark "<", false, offset, elementText name attributes ++ rest, offset + 1,
        name.toList ++ (attributesText attributes ++ (" />".toList ++ rest))⟩, previous,
        waiting⟩ := by
  rw [elementText_append, State.facing, Lexeme.next_angle isName]

include isName isWord areNames in
theorem guessTypeParameters_of_element (offset waiting : Nat) (rest : List Char) :
    ∃ s, guessTypeParameters (.behind
      ⟨offset, name.toList ++ (attributesText attributes ++ (" />".toList ++ rest))⟩ waiting) =
      some (.no, s) := by
  have here := behind_angle isName attributes offset waiting rest
  have next : advance (.behind
      ⟨offset, name.toList ++ (attributesText attributes ++ (" />".toList ++ rest))⟩ waiting) =
      some ((), .behind ⟨offset + Text.byteSize name.toList,
        attributesText attributes ++ (" />".toList ++ rest)⟩ waiting) := by
    simp only [advance, here]
    rfl
  generalize State.behind
    ⟨offset, name.toList ++ (attributesText attributes ++ (" />".toList ++ rest))⟩ waiting = s
    at here next ⊢
  have noConst : eat "const" s = some (false, s) := by
    have found : plainText s.lexeme.token = some name := by
      rw [here]
      rfl
    have other : name ∉ ["const"] := by
      rw [List.mem_singleton]
      rintro rfl
      exact absurd isWord (by decide)
    exact (notAt_of_plainText ["const"] found other).eat (by decide)
  have word : atWord s = some (true, s) := atWord_of_word (by rw [here])
  have found := plainText_attributes areNames (offset + Text.byteSize name.toList) waiting rest
  generalize offset + Text.byteSize name.toList = offset' at next found
  simp only [guessTypeParameters, bind_apply, noConst, word, next, Option.bind_some,
    Bool.not_true, Bool.false_eq_true, if_false]
  by_cases extends_ : attributes.head? = some "extends"
  case pos =>
    obtain ⟨more, rfl⟩ : ∃ more, attributes = "extends" :: more := by
      cases attributes with
      | nil => cases extends_
      | cons property more => exact ⟨more, by rw [Option.some.inj extends_]⟩
    obtain ⟨s', eaten, noType⟩ := behind_extends offset' waiting
      (attributesText more ++ (" />".toList ++ rest))
    have noComma := (notAt_of_plainText [",", "="] found (by simp)).atAny fun _ member => member
    rw [attributesText_cons, State.behind_blank (startsToken_attributeText (by decide) _)] at *
    simp only [noComma, eaten, noType, Option.bind_some, Bool.false_eq_true, if_false, if_true,
      bind_apply]
    exact ⟨_, rfl⟩
  case neg =>
    have noMark := notAt_of_plainText [",", "=", "extends"] found (by
      cases attributes with
      | nil => decide
      | cons property more =>
        have isProperty := areNames property (by simp)
        have noComma := ne_of_isIdentifier isProperty (by decide : Text.isIdentifier "," = false)
        have noEquals := ne_of_isIdentifier isProperty (by decide : Text.isIdentifier "=" = false)
        have noExtends : property ≠ "extends" := fun same => extends_ (by rw [same]; rfl)
        simp [noComma, noEquals, noExtends])
    have noComma : atAny [",", "="] _ = _ := noMark.atAny (by simp)
    have noExtends : eat "extends" _ = _ := noMark.eat (by simp)
    simp only [noComma, noExtends, Option.bind_some, Bool.false_eq_true, if_false, bind_apply]
    exact ⟨_, rfl⟩

include isName isWord areNames in
theorem arrowFunction?_of_element (r : Rules) (previous offset waiting : Nat) (rest : List Char) :
    arrowFunction? r bodyContext true
      (.facing previous ⟨offset, elementText name attributes ++ rest⟩ waiting) =
      some (none, .facing previous ⟨offset, elementText name attributes ++ rest⟩ waiting) := by
  obtain ⟨s, guess⟩ := guessTypeParameters_of_element isName isWord areNames (offset + 1) waiting
    rest
  have angle := facing_element isName attributes previous offset waiting rest
  generalize State.facing previous ⟨offset, elementText name attributes ++ rest⟩ waiting = s'
    at angle ⊢
  have opening : atAny ["(", "<", "async"] s' = some (true, s') := by
    subst angle
    rfl
  have opened : guessArrow bodyContext s' = some (.no, s') := by
    have inner : guessArrow bodyContext s' = some (((guessTypeParameters (.behind
        ⟨offset + 1, name.toList ++ (attributesText attributes ++ (" />".toList ++ rest))⟩
        waiting)).map (·.1)).getD .no, s') := by
      subst angle
      rfl
    rw [inner, guess]
    rfl
  have noAsync : at? "async" s' = some (false, s') := by
    subst angle
    rfl
  simp only [arrowFunction?, bind_apply, opening, opened, noAsync, Option.bind_some,
    Bool.false_eq_true, if_false, if_true, pure_apply]

include isName areNames in
theorem unaryRule_of_element {depth : Nat} (enough : attributes.length < depth)
    (previous offset waiting : Nat) (rest : List Char) :
    ∃ parts, unaryRule (rules (depth + 7)) bodyContext
        (.facing previous ⟨offset, elementText name attributes ++ rest⟩ waiting) =
      some (.markup ⟨offset, offset + Text.byteSize (elementText name attributes)⟩ parts,
        .behind ⟨offset + Text.byteSize (elementText name attributes), rest⟩ waiting) := by
  obtain ⟨parts, read⟩ := markupRule_of_element (c := bodyContext) rfl rfl (by decide) isName
    areNames enough previous offset waiting rest
  refine ⟨parts, ?_⟩
  have here := behind_angle isName attributes (offset + 1) waiting rest
  have word := atWord_of_word (congrArg Lexeme.token here)
  have angle := facing_element isName attributes previous offset waiting rest
  generalize State.facing previous ⟨offset, elementText name attributes ++ rest⟩ waiting = s
    at angle read ⊢
  have markup : atMarkup s = some (true, s) := by
    have inner : atMarkup s = some (((atWord (.behind
        ⟨offset + 1, name.toList ++ (attributesText attributes ++ (" />".toList ++ rest))⟩
        waiting)).bind fun found => (at? ">" found.2).bind fun closed =>
          require (found.1 || closed.1) closed.2).isSome, s) := by
      subst angle
      rfl
    rw [inner, word]
    rfl
  have step : unaryRule (rules (depth + 7)) bodyContext s =
      (atMarkup s).bind fun found => (if found.1 then (rules (depth + 7)).markup bodyContext false
        else do
          let operand ← (rules (depth + 7)).operand bodyContext
          if (← atAny ["++", "--"]) && !(← onNewLine) then
            require operand.isPlace
            advance
            return .other (← spanFrom offset) [operand]
          else return operand) found.2 := by
    subst angle
    rfl
  rw [step, markup]
  exact read

include isName isWord areNames in
theorem value_of_element {depth : Nat} (enough : attributes.length < depth)
    (previous offset waiting : Nat) {rest : List Char} (closes : Closes rest) :
    ∃ e, (rules (depth + 10)).assignment bodyContext true
        (.facing previous ⟨offset, elementText name attributes ++ rest⟩ waiting) =
      some (e, .behind ⟨offset + Text.byteSize (elementText name attributes), rest⟩ waiting) := by
  obtain ⟨parts, unary⟩ := unaryRule_of_element isName areNames enough previous offset waiting rest
  have public_ : (State.facing previous ⟨offset, elementText name attributes ++ rest⟩
      waiting).lexeme.token ≠ .privateName := by
    rw [facing_element isName]
    rintro ⟨⟩
  exact ⟨_, value_of_unary rfl (arrowFunction?_of_element isName isWord areNames _ _ _ _ _) public_
    unary (closes.stops _ _ _)⟩

/-- The function that gives an element; it takes `props` if the element has attributes. -/
def sampleText (name : String) (attributes : List String) : List Char :=
  (if attributes.isEmpty then "() => " else "(props) => ").toList ++ elementText name attributes

include isName isWord areNames in
theorem arrowBody_of_element {depth : Nat} (enough : attributes.length < depth)
    (offset waiting : Nat) {rest : List Char} (closes : Closes rest) :
    ∃ parts, arrowBody (rules (depth + 10)) .module false true
        (.behind ⟨offset, ' ' :: (elementText name attributes ++ rest)⟩ waiting) =
      some (parts, .behind ⟨offset + 1 + Text.byteSize (elementText name attributes), rest⟩
        waiting) := by
  obtain ⟨e, body⟩ := value_of_element isName isWord areNames enough offset (offset + 1) waiting
    closes
  have starts : StartsToken (elementText name attributes ++ rest) := fun _ _ => rfl
  have angle : plainText (State.facing offset
      ⟨offset + 1, elementText name attributes ++ rest⟩ waiting).lexeme.token = some "<" := by
    rw [facing_element isName]
    rfl
  have noBrace := (notAt_of_plainText ["\x7b"] angle (by decide)).at? (by decide : "\x7b" ∈ ["\x7b"])
  rw [State.behind_blank starts]
  exact ⟨[e], arrowBody_of_value noBrace body⟩

theorem parenthesizedArrow_empty (depth previous offset waiting : Nat) (text : List Char) :
    parenthesizedArrow (rules (depth + 1)) .module true
      (.facing previous ⟨offset, "() => ".toList ++ text⟩ waiting) =
      (arrowBody (rules (depth + 1)) .module false true
        (.behind ⟨offset + 5, ' ' :: text⟩ waiting)).bind fun found =>
          some (.function ⟨offset, found.2.previous⟩ found.1, found.2) := rfl

theorem arrowFunction?_empty (r : Rules) (previous offset waiting : Nat) (text : List Char) :
    arrowFunction? r .module true
      (.facing previous ⟨offset, "() => ".toList ++ text⟩ waiting) =
      (parenthesizedArrow r .module true
        (.facing previous ⟨offset, "() => ".toList ++ text⟩ waiting)).bind fun found =>
          some (some found.1, found.2) := rfl

theorem parenthesizedArrow_props (depth previous offset waiting : Nat) (text : List Char) :
    parenthesizedArrow (rules (depth + 2)) .module true
      (.facing previous ⟨offset, "(props) => ".toList ++ text⟩ waiting) =
      (arrowBody (rules (depth + 2)) .module false true
        (.behind ⟨offset + 10, ' ' :: text⟩ waiting)).bind fun found =>
          some (.function ⟨offset, found.2.previous⟩ found.1, found.2) := rfl

theorem arrowFunction?_props (r : Rules) (previous offset waiting : Nat) (text : List Char) :
    arrowFunction? r .module true
      (.facing previous ⟨offset, "(props) => ".toList ++ text⟩ waiting) =
      attempt (parenthesizedArrow r .module true)
        (.facing previous ⟨offset, "(props) => ".toList ++ text⟩ waiting) := rfl

theorem assignmentRule_of_function {r : Rules} {c : Context} {s s' : State} {e : Expr}
    (plain : c.yields = false) (read : arrowFunction? r c true s = some (some e, s')) :
    assignmentRule r c true s = some (e, s') := by
  have noYield : at? "yield" s = some (plainText s.lexeme.token == some "yield", s) := rfl
  simp only [assignmentRule, bind_apply, plain, noYield, read, Bool.false_and, Bool.false_eq_true,
    if_false, Option.bind_some, pure_apply]

include isName isWord areNames in
theorem arrowFunction?_of_sample {depth : Nat} (enough : attributes.length < depth)
    (previous offset waiting : Nat) {rest : List Char} (closes : Closes rest) :
    ∃ e, e.span = ⟨offset, offset + Text.byteSize (sampleText name attributes)⟩ ∧
      arrowFunction? (rules (depth + 10)) .module true
        (.facing previous ⟨offset, sampleText name attributes ++ rest⟩ waiting) =
      some (some e, .behind ⟨offset + Text.byteSize (sampleText name attributes), rest⟩
        waiting) := by
  cases empty : attributes.isEmpty with
  | true =>
    have shape : sampleText name attributes = "() => ".toList ++ elementText name attributes := by
      rw [sampleText, empty, if_pos rfl]
    have size : offset + Text.byteSize (sampleText name attributes) =
        offset + 5 + 1 + Text.byteSize (elementText name attributes) := by
      rw [shape, Text.byteSize_append, show Text.byteSize "() => ".toList = 6 from rfl]
      omega
    obtain ⟨parts, body⟩ := arrowBody_of_element isName isWord areNames enough (offset + 5) waiting
      closes
    have function := parenthesizedArrow_empty (depth + 9) previous offset waiting
      (elementText name attributes ++ rest)
    rw [body, Option.bind_some] at function
    rw [size, shape, List.append_assoc]
    refine ⟨.function ⟨offset, _⟩ parts, rfl, ?_⟩
    rw [arrowFunction?_empty, function]
    rfl
  | false =>
    have shape : sampleText name attributes =
        "(props) => ".toList ++ elementText name attributes := by
      rw [sampleText, empty, if_neg Bool.false_ne_true]
    have size : offset + Text.byteSize (sampleText name attributes) =
        offset + 10 + 1 + Text.byteSize (elementText name attributes) := by
      rw [shape, Text.byteSize_append, show Text.byteSize "(props) => ".toList = 11 from rfl]
      omega
    obtain ⟨parts, body⟩ := arrowBody_of_element isName isWord areNames enough (offset + 10)
      waiting closes
    have function := parenthesizedArrow_props (depth + 8) previous offset waiting
      (elementText name attributes ++ rest)
    rw [body, Option.bind_some] at function
    rw [size, shape, List.append_assoc]
    refine ⟨.function ⟨offset, _⟩ parts, rfl, ?_⟩
    rw [arrowFunction?_props, attempt, function]
    rfl

include isName isWord areNames in
theorem reads_sample : Reads (sampleText name attributes) fun source e =>
    source.textOf e.span = String.ofList (sampleText name attributes) where
  starts rest := by
    rw [sampleText]
    split <;> exact fun _ _ => rfl
  opens previous offset waiting rest _ := by
    rw [sampleText]
    split <;> exact (by decide : ∀ mark ∈ listMarks, plainText (.mark "(") ≠ some mark)
  read depth previous offset waiting rest enough closes := by
    have few := length_le_attributesText attributes
    have long : attributes.length + 5 < (sampleText name attributes).length := by
      have opening : 5 < (if attributes.isEmpty then "() => " else "(props) => ").toList.length := by
        split <;> decide
      simp only [sampleText, elementText, List.length_append, List.length_cons]
      omega
    obtain ⟨depth, rfl⟩ : ∃ less, depth = less + 11 := ⟨depth - 11, by omega⟩
    obtain ⟨e, span, function⟩ := arrowFunction?_of_sample isName isWord areNames
      (by omega : attributes.length < depth) previous offset waiting closes
    refine ⟨e, ?_, fun source goesOn => by rw [span]; exact goesOn.textOf⟩
    exact assignmentRule_of_function rfl function

end Element
end DesignLink.Script
