import DesignLink.Proofs.Script.Arrows

/-!
Markup in its text: an element without children whose attributes take members of `props`.
-/

namespace DesignLink.Script

open DesignLink.Script.Parser DesignLink.Script.Grammar

variable {r : Rules} {c : Context}

/-! Names of markup. -/

theorem Lexeme.next_angle {name : String} (isName : Text.isIdentifier name = true)
    (offset : Nat) (rest : List Char) :
    Lexeme.next ⟨offset, '<' :: (name.toList ++ rest)⟩ =
      ⟨.mark "<", false, offset, '<' :: (name.toList ++ rest), offset + 1,
        name.toList ++ rest⟩ := by
  obtain ⟨c, more, shape, starts, _⟩ := (isIdentifier_iff name).mp isName
  rw [shape, List.cons_append]
  have noAngle : ('<' == c) = false := beq_false_of_ne (ne_of_startsName starts rfl).symm
  have noEquals : ('=' == c) = false := beq_false_of_ne (ne_of_startsName starts rfl).symm
  have mark : Token.scanMark ('<' :: c :: (more ++ rest)) = some "<" := by
    change Token.markOf Token.marks _ = _
    simp [Token.markOf, Token.marks, List.isPrefixOf, noAngle, noEquals]
  exact Lexeme.next_mark (fun _ _ => rfl) (by decide) rfl mark offset

theorem markupWord_name {name : String} (isName : Text.isIdentifier name = true)
    {rest : List Char} (ends : EndsName rest) (noHyphen : ∀ c ∈ rest.head?, c ≠ '-') (newline : Bool)
    (previous offset waiting : Nat) :
    markupWord (.at newline previous ⟨offset, name.toList ++ rest⟩ waiting) =
      some (name, .behind ⟨offset + Text.byteSize name.toList, rest⟩ waiting) := by
  obtain ⟨c, more, shape, starts, continues⟩ := (isIdentifier_iff name).mp isName
  have parts : ∀ d ∈ name.toList, (Text.isIdentifierPart d || d = '-') = true := by
    intro d member
    rw [shape, List.mem_cons] at member
    rw [Bool.or_eq_true]
    refine .inl (isIdentifierPart_of_continuesName ?_)
    rcases member with rfl | later
    · exact continuesName_of_startsName starts
    · exact List.all_eq_true.mp continues d later
  have taken : (name.toList ++ rest).takeWhile (fun c => Text.isIdentifierPart c || c = '-') =
      name.toList := by
    rw [List.takeWhile_append_of_pos parts]
    cases rest with
    | nil => simp
    | cons d rest =>
      have stop := (ends d rfl).1
      have other := noHyphen d rfl
      simp [stop, other]
  have next := Lexeme.next_name isName ends offset
  rw [State.at, next]
  simp only [markupWord, bind_apply, lexeme, Option.bind_some, taken, List.drop_left, moveTo]
  rw [String.ofList_toList]
  rfl
/-! Attributes. -/

theorem value_of_member {head name : String} (isOperand : IsOperandName head)
    (isHead : Parser.isName c head = true) (isName : Text.isIdentifier name = true)
    (plain : c.yields = false) {rest : List Char} (closes : Closes rest) (depth : Nat)
    (previous offset waiting : Nat) :
    ∃ e, (rules (depth + 6)).assignment c true
        (.facing previous ⟨offset, head.toList ++ '.' :: (name.toList ++ rest)⟩ waiting) =
      some (e, .behind ⟨offset + Text.byteSize head.toList + 1 + Text.byteSize name.toList, rest⟩
        waiting) := by
  have ends : EndsName ('.' :: (name.toList ++ rest)) := by
    rintro c ⟨⟩
    decide
  have next := Lexeme.next_name isOperand.1 ends offset
  have first : primary (rules (depth + 2)) c (depth + 2)
      (.facing previous ⟨offset, head.toList ++ '.' :: (name.toList ++ rest)⟩ waiting) =
      some (.identifier ⟨offset, offset + Text.byteSize head.toList⟩ head,
        .behind ⟨offset + Text.byteSize head.toList, '.' :: (name.toList ++ rest)⟩ waiting) := by
    rw [State.facing, next]
    exact primary_of_name isHead isOperand.2.2.1 (Nat.succ_pos _) _ _ _ _ _ _ _
  have members := memberRest_names (r := rules (depth + 2)) (c := c) offset closes.endsName waiting
    (fun _ _ => memberStep_of_stops (closes.stops _ _ _) true _) [name]
    (by simpa using isName) (by rw [bound_rules, List.length_singleton]; omega)
    (.identifier ⟨offset, offset + Text.byteSize head.toList⟩ head)
    (offset + Text.byteSize head.toList)
  have size : Text.byteSize (membersText [name]) = 1 + Text.byteSize name.toList := by
    simp [membersText, show ('.' : Char).utf8Size = 1 from rfl]
  have text : membersText [name] ++ rest = '.' :: (name.toList ++ rest) := by
    simp [membersText]
  rw [size, text, ← Nat.add_assoc] at members
  have starts := startsToken_of_isIdentifier isOperand.1 ('.' :: (name.toList ++ rest))
  have operand := operandRule_of_run (r := rules (depth + 2)) (by rw [bound_rules]; omega)
    (State.start_facing starts previous offset waiting) (by rw [bound_rules]; exact first)
    (.stop members (closes.stops _ _ _))
  have opens : StartsOperand (State.facing previous
      ⟨offset, head.toList ++ '.' :: (name.toList ++ rest)⟩ waiting).lexeme.token := by
    rw [State.facing, next]
    exact isOperand.2.2.2
  exact ⟨_, value_of_operand true plain
    (fun mark member => opens.2 mark (List.mem_append_left _ member)) opens.1 operand
    (closes.stops _ _ _)⟩

def attributeText (name : String) : List Char :=
  name.toList ++ ("=\x7bprops.".toList ++ (name.toList ++ ['\x7d']))

theorem attributeValue_of_member (plain : c.yields = false) (inside : c.withIn = c) {name : String}
    (isProps : Parser.isName c "props" = true)
    (isName : Text.isIdentifier name = true) (depth previous offset waiting : Nat)
    (rest : List Char) :
    ∃ parts, attributeValue (rules (depth + 6)) c
        (.facing previous ⟨offset, "=\x7bprops.".toList ++ (name.toList ++ '\x7d' :: rest)⟩ waiting) =
      some (parts, .behind ⟨offset + 9 + Text.byteSize name.toList, rest⟩ waiting) := by
  obtain ⟨e, read⟩ := value_of_member (by decide : IsOperandName "props") isProps isName plain
    (Closes.brace rest) depth (offset + 2) (offset + 2) waiting
  have value : attributeValue (rules (depth + 6)) c
      (.facing previous ⟨offset, "=\x7bprops.".toList ++ (name.toList ++ '\x7d' :: rest)⟩ waiting) =
      ((rules (depth + 6)).assignment c.withIn true (.behind ⟨offset + 2,
        "props".toList ++ '.' :: (name.toList ++ '\x7d' :: rest)⟩ waiting)).bind fun found =>
          (expect "\x7d" found.2).bind fun closed => some ([found.1], closed.2) := rfl
  rw [value, inside, State.behind, read]
  have size : offset + 2 + Text.byteSize "props".toList + 1 + Text.byteSize name.toList =
      offset + 8 + Text.byteSize name.toList := by
    rw [show Text.byteSize "props".toList = 5 from rfl]
  rw [size]
  refine ⟨[e], ?_⟩
  rw [show offset + 9 + Text.byteSize name.toList = offset + 8 + Text.byteSize name.toList + 1 by
    omega]
  rfl

theorem markupAttribute_of_member (plain : c.yields = false) (inside : c.withIn = c) {name : String}
    (isProps : Parser.isName c "props" = true)
    (isName : Text.isIdentifier name = true) (depth previous offset waiting : Nat)
    (rest : List Char) :
    ∃ parts, markupAttribute (rules (depth + 6)) c
        (.facing previous ⟨offset, attributeText name ++ rest⟩ waiting) =
      some (parts, .behind ⟨offset + Text.byteSize (attributeText name), rest⟩ waiting) := by
  have starts := startsToken_of_isIdentifier isName
    ("=\x7bprops.".toList ++ (name.toList ++ '\x7d' :: rest))
  have ends : EndsName ("=\x7bprops.".toList ++ (name.toList ++ '\x7d' :: rest)) := by
    rintro c ⟨⟩
    decide
  have word := markupWord_name isName ends (by rintro c ⟨⟩; decide) false previous offset waiting
  obtain ⟨parts, value⟩ := attributeValue_of_member plain inside isProps isName depth
    (offset + Text.byteSize name.toList) (offset + Text.byteSize name.toList) waiting rest
  have noBrace : eat "\x7b" (.at false previous
      ⟨offset, name.toList ++ ("=\x7bprops.".toList ++ (name.toList ++ '\x7d' :: rest))⟩ waiting) =
      some (false, .at false previous
        ⟨offset, name.toList ++ ("=\x7bprops.".toList ++ (name.toList ++ '\x7d' :: rest))⟩
        waiting) := by
    have other := ne_of_isIdentifier isName (by decide : Text.isIdentifier "\x7b" = false)
    rw [State.at, Lexeme.next_name isName ends]
    simp [eat, at?, plainText, bind_apply, other, pure_apply]
  have noColon : eat ":" (.behind ⟨offset + Text.byteSize name.toList,
      "=\x7bprops.".toList ++ (name.toList ++ '\x7d' :: rest)⟩ waiting) = some (false, _) := rfl
  have equals : at? "=" (.behind ⟨offset + Text.byteSize name.toList,
      "=\x7bprops.".toList ++ (name.toList ++ '\x7d' :: rest)⟩ waiting) = some (true, _) := rfl
  have shape : attributeText name ++ rest =
      name.toList ++ ("=\x7bprops.".toList ++ (name.toList ++ '\x7d' :: rest)) := by
    simp [attributeText]
  have size : offset + Text.byteSize (attributeText name) =
      offset + Text.byteSize name.toList + 9 + Text.byteSize name.toList := by
    simp only [attributeText, Text.byteSize_append, Text.byteSize_cons, Text.byteSize_nil,
      show Text.byteSize "=\x7bprops.".toList = 8 from rfl, show ('\x7d' : Char).utf8Size = 1 from rfl]
    omega
  rw [shape, size, State.facing_eq_at starts]
  refine ⟨parts, ?_⟩
  simp only [markupAttribute, bind_apply, noBrace, word, noColon, equals, Option.bind_some,
    Bool.false_eq_true, if_false, if_true]
  exact value
/-! Elements. -/

def attributesText (names : List String) : List Char :=
  names.flatMap fun name => ' ' :: attributeText name

def elementText (name : String) (attributes : List String) : List Char :=
  '<' :: (name.toList ++ (attributesText attributes ++ " />".toList))

theorem attributesText_cons (name : String) (names : List String) (rest : List Char) :
    attributesText (name :: names) ++ rest =
      ' ' :: (attributeText name ++ (attributesText names ++ rest)) := by
  simp [attributesText]

theorem startsToken_attributeText {name : String} (isName : Text.isIdentifier name = true)
    (rest : List Char) : StartsToken (attributeText name ++ rest) := by
  rw [attributeText, List.append_assoc]
  exact startsToken_of_isIdentifier isName _

theorem plainText_attributes {names : List String}
    (areNames : ∀ name ∈ names, Text.isIdentifier name = true) (offset waiting : Nat)
    (rest : List Char) :
    plainText (State.behind ⟨offset, attributesText names ++ (" />".toList ++ rest)⟩
      waiting).lexeme.token = some (names.headD "/") := by
  cases names with
  | nil => rfl
  | cons name names =>
    have isName := areNames name (by simp)
    have ends : EndsName ("=\x7bprops.".toList ++ (name.toList ++ '\x7d' ::
        (attributesText names ++ (" />".toList ++ rest)))) := by
      rintro c ⟨⟩
      decide
    have shape : attributeText name ++ (attributesText names ++ (" />".toList ++ rest)) =
        name.toList ++ ("=\x7bprops.".toList ++ (name.toList ++ '\x7d' ::
          (attributesText names ++ (" />".toList ++ rest)))) := by
      simp [attributeText]
    rw [attributesText_cons, State.behind_blank (startsToken_attributeText isName _), shape,
      State.facing, Lexeme.next_name isName ends]
    rfl

theorem notAt_attributes {names : List String}
    (areNames : ∀ name ∈ names, Text.isIdentifier name = true) (offset waiting : Nat)
    (rest : List Char) : NotAt [":", ".", "<"]
      (.behind ⟨offset, attributesText names ++ (" />".toList ++ rest)⟩ waiting) := by
  intro mark member same
  rw [plainText_attributes areNames] at same
  have noName : ∀ mark ∈ [":", ".", "<"], mark ≠ "/" ∧ Text.isIdentifier mark = false := by decide
  cases names with
  | nil => exact (noName mark member).1 (Option.some.inj same).symm
  | cons name names =>
    exact ne_of_isIdentifier (areNames name (by simp)) (noName mark member).2
      (Option.some.inj same)

theorem collectRun_attributes (plain : c.yields = false) (inside : c.withIn = c)
    (isProps : Parser.isName c "props" = true) (depth waiting : Nat) (rest : List Char) :
    ∀ (names : List String), (∀ name ∈ names, Text.isIdentifier name = true) → ∀ offset,
      ∃ parts, parts.length = names.length ∧
        CollectRun (do return !(← atAny ["/", ">"])) (markupAttribute (rules (depth + 6)) c)
          (.behind ⟨offset, attributesText names ++ (" />".toList ++ rest)⟩ waiting) parts
          (.behind ⟨offset + Text.byteSize (attributesText names), " />".toList ++ rest⟩
            waiting) := by
  intro names
  induction names with
  | nil => exact fun _ offset => ⟨[], rfl, .done rfl⟩
  | cons name names ih =>
    intro areNames offset
    have isName := areNames name (by simp)
    have notAt : NotAt ["/", ">"] (.behind ⟨offset, attributesText (name :: names) ++
        (" />".toList ++ rest)⟩ waiting) := by
      intro mark member same
      rw [plainText_attributes areNames] at same
      have noName : ∀ mark ∈ ["/", ">"], Text.isIdentifier mark = false := by decide
      exact ne_of_isIdentifier isName (noName mark member) (Option.some.inj same)
    have goesOn := notAt.atAny (fun _ member => member : ∀ mark ∈ ["/", ">"], mark ∈ ["/", ">"])
    rw [attributesText_cons, State.behind_blank (startsToken_attributeText isName _)] at goesOn ⊢
    obtain ⟨property, read⟩ := markupAttribute_of_member plain inside isProps isName depth offset
      (offset + 1) waiting (attributesText names ++ (" />".toList ++ rest))
    obtain ⟨parts, same, run⟩ := ih (fun other member => areNames other (by simp [member]))
      (offset + 1 + Text.byteSize (attributeText name))
    have size : offset + Text.byteSize (attributesText (name :: names)) =
        offset + 1 + Text.byteSize (attributeText name) +
          Text.byteSize (attributesText names) := by
      simp only [attributesText, List.flatMap_cons, Text.byteSize_append, Text.byteSize_cons,
        show (' ' : Char).utf8Size = 1 from rfl]
      omega
    rw [size]
    refine ⟨property :: parts, by rw [List.length_cons, same, List.length_cons], ?_⟩
    apply CollectRun.next _ read run
    simp only [bind_apply, goesOn, Option.bind_some, Bool.not_false, pure_apply]

theorem markupRule_of_element (plain : c.yields = false) (inside : c.withIn = c)
    (isProps : Parser.isName c "props" = true) {name : String}
    (isName : Text.isIdentifier name = true) {attributes : List String}
    (areNames : ∀ property ∈ attributes, Text.isIdentifier property = true) {depth : Nat}
    (enough : attributes.length < depth) (previous offset waiting : Nat) (rest : List Char) :
    ∃ parts, markupRule (rules (depth + 6)) c false
        (.facing previous ⟨offset, elementText name attributes ++ rest⟩ waiting) =
      some (.markup ⟨offset, offset + Text.byteSize (elementText name attributes)⟩ parts,
        .behind ⟨offset + Text.byteSize (elementText name attributes), rest⟩ waiting) := by
  obtain ⟨parts, same, run⟩ := collectRun_attributes plain inside isProps depth waiting rest
    attributes areNames (offset + 1 + Text.byteSize name.toList)
  have notAt := notAt_attributes areNames (offset + 1 + Text.byteSize name.toList) waiting rest
  have shape : elementText name attributes ++ rest =
      '<' :: (name.toList ++ (attributesText attributes ++ (" />".toList ++ rest))) := by
    simp [elementText]
  have size : offset + Text.byteSize (elementText name attributes) =
      offset + 1 + Text.byteSize name.toList + Text.byteSize (attributesText attributes) + 3 := by
    simp only [elementText, Text.byteSize_append, Text.byteSize_cons,
      show Text.byteSize " />".toList = 3 from rfl, show ('<' : Char).utf8Size = 1 from rfl]
    omega
  rw [shape, size]
  have opening : expect "<" (.facing previous ⟨offset,
      '<' :: (name.toList ++ (attributesText attributes ++ (" />".toList ++ rest)))⟩ waiting) =
      some ((), .behind ⟨offset + 1,
        name.toList ++ (attributesText attributes ++ (" />".toList ++ rest))⟩ waiting) := by
    rw [State.facing, Lexeme.next_angle isName]
    rfl
  have start : Parser.start (.facing previous ⟨offset,
      '<' :: (name.toList ++ (attributesText attributes ++ (" />".toList ++ rest)))⟩ waiting) =
      some (offset, .facing previous ⟨offset,
        '<' :: (name.toList ++ (attributesText attributes ++ (" />".toList ++ rest)))⟩
          waiting) := by
    rw [State.facing, Lexeme.next_angle isName]
    rfl
  have ends : EndsName (attributesText attributes ++ (" />".toList ++ rest)) ∧
      ∀ c ∈ (attributesText attributes ++ (" />".toList ++ rest)).head?, c ≠ '-' := by
    cases attributes with
    | nil => exact ⟨by rintro c ⟨⟩; decide, by rintro c ⟨⟩; decide⟩
    | cons property attributes =>
      rw [attributesText_cons]
      exact ⟨by rintro c ⟨⟩; decide, by rintro c ⟨⟩; decide⟩
  have word := markupWord_name isName ends.1 ends.2 false (offset + 1) (offset + 1) waiting
  have starts := startsToken_of_isIdentifier isName
    (attributesText attributes ++ (" />".toList ++ rest))
  rw [← State.facing_eq_at starts] at word
  have noAngle : at? ">" (.behind ⟨offset + 1,
      name.toList ++ (attributesText attributes ++ (" />".toList ++ rest))⟩ waiting) =
      some (false, .behind ⟨offset + 1,
        name.toList ++ (attributesText attributes ++ (" />".toList ++ rest))⟩ waiting) := by
    have other := ne_of_isIdentifier isName (by decide : Text.isIdentifier ">" = false)
    rw [State.behind, State.facing, Lexeme.next_name isName ends.1]
    simp [at?, plainText, other]
  have noPoint : collectWhile (rules (depth + 6)).bound (at? ".")
      (do advance; markupWord) (.behind ⟨offset + 1 + Text.byteSize name.toList,
        attributesText attributes ++ (" />".toList ++ rest)⟩ waiting) = some ([], _) :=
    (CollectRun.done (notAt.at? (by decide))).collectWhile (by rw [bound_rules]; exact Nat.succ_pos _)
  have named : markupName (rules (depth + 6)) (.behind ⟨offset + 1,
      name.toList ++ (attributesText attributes ++ (" />".toList ++ rest))⟩ waiting) =
      some ([name], .behind ⟨offset + 1 + Text.byteSize name.toList,
        attributesText attributes ++ (" />".toList ++ rest)⟩ waiting) := by
    rw [State.behind]
    simp only [markupName, bind_apply, word, notAt.eat (by decide : ":" ∈ _), noPoint,
      Option.bind_some, Bool.false_eq_true, if_false, List.isEmpty_nil, Bool.true_or, require,
      if_true, pure_apply]
  have noTypes := notAt.at? (by decide : "<" ∈ [":", ".", "<"])
  have collected := run.collectWhile (by rw [bound_rules, same]; omega :
    parts.length < (rules (depth + 6)).bound)
  refine ⟨parts.flatten, ?_⟩
  simp only [markupRule, bind_apply, start, opening, noAngle, named, noTypes, collected,
    Option.bind_some, Bool.false_eq_true, if_false, pure_apply, List.nil_append]
  rfl
end DesignLink.Script
