import DesignLink.Proofs.Declaration.Literals
import DesignLink.Proofs.Mapping.Selectors
import DesignLink.Proofs.Results
import DesignLink.Proofs.Script.Arrows

/-!
Rendered look-ups are code: every helper renders to one value, every mapping to one object literal
that keeps its keys.
-/

namespace DesignLink

open Script

/-! The layout of rendered code. -/

/-- The members of the current layer that accessors of a kind are. -/
def accessPath (kind : HelperKind) : List String := ["currentLayer", "__properties__", kind.tag]

theorem toList_renderAccess (kind : HelperKind) (arguments : List String) :
    (renderAccess currentLayer kind (String.intercalate ", " arguments)).toList =
      callText "figma" (accessPath kind) (arguments.map String.toList) := by
  have layer : (currentLayer ++ ".__properties__." ++ kind.tag).toList =
      pathText "figma" (accessPath kind) := by
    simp [currentLayer, accessPath, pathText, membersText]
  have call : renderAccess currentLayer kind (String.intercalate ", " arguments) =
      currentLayer ++ ".__properties__." ++ kind.tag ++
        ("(" ++ String.intercalate ", " arguments ++ ")") := by
    simp [renderAccess, String.append_assoc]
  rw [callText, argumentsText, ← layer, ← Parser.intercalate_append, call]
  simp [String.toList_intercalate]

theorem toList_renderEntry (key value : String) :
    (renderEntry key value).toList = quotedChars '"' key ++ ':' :: ' ' :: value.toList := by
  simp [renderEntry, toList_quoted]

theorem toList_renderObject (entries : List String) :
    (renderObject entries).toList =
      '\x7b' :: (['\n'] ++ Parser.joined ['\n'] ['\x7d'] (entries.map String.toList)) := by
  rw [← Parser.intercalate_append]
  simp [renderObject, String.toList_intercalate]

/-! Values. -/

def IsValue (text : List Char) : Prop := Reads text fun _ _ => True

theorem Script.Reads.isValue {text : List Char} {Q : Source → Expr → Prop} (reads : Reads text Q) :
    IsValue text := reads.imp fun _ _ _ => trivial

theorem isValue_quoted {quote : Char} (isQuote : IsQuote quote) (text : String) :
    IsValue (quotedChars quote text) := (reads_quoted isQuote text).isValue

theorem isValue_call {head : String} (isOperand : IsOperandName head) (names arguments : List String)
    (areNames : ∀ name ∈ names, Text.isIdentifier name = true)
    (nonempty : arguments ≠ []) (each : ∀ argument ∈ arguments, IsValue argument.toList) :
    IsValue (callText head names (arguments.map String.toList)) :=
  (reads_call isOperand areNames nonempty String.toList (fun _ _ _ => True) each).isValue

theorem isValue_render_snippet (s : Snippet) : IsValue s.render.toList := by
  have isOperand : IsOperandName s.kind.builder := by cases s.kind <;> decide
  have call := isValue_call isOperand [] [Text.quotedSingle s.text] (by simp)
    (by simp) (by simpa [toList_quotedSingle] using isValue_quoted (.inr rfl) s.text)
  have layout : s.render.toList =
      callText s.kind.builder [] ([Text.quotedSingle s.text].map String.toList) := by
    simp [Snippet.render, callText, argumentsText, pathText, membersText, Parser.joined]
  rw [layout]
  exact call

theorem isValue_render_literal (literal : Literal) : IsValue literal.render.toList := by
  cases literal with
  | snippet s => exact isValue_render_snippet s
  | boolean value => exact (reads_boolean value).isValue
  | number value => exact (Declaration.reads_number value).isValue
  | string value =>
    rw [Literal.render, toList_quotedSingle]
    exact isValue_quoted (.inr rfl) value
  | undefined => exact (reads_identifier (by decide : "undefined" ∈ valueNames)).isValue

/-- The members of an object literal have these strings as keys. -/
def HaveKeys (members : List Member) (keys : List String) : Prop :=
  List.Forall₂ (fun member key =>
    ∃ span span' value, member = .field span (.expression (.string span' key)) false value)
    members keys

theorem reads_renderObject (entries : List (String × String))
    (each : ∀ entry ∈ entries, IsValue entry.2.toList) :
    Reads (renderObject (entries.map fun entry => renderEntry entry.1 entry.2)).toList
      fun _ e => ∃ span members, e = .object span members ∧
        HaveKeys members (Dictionary.keys entries) := by
  rw [toList_renderObject, List.map_map]
  by_cases empty : entries = []
  case pos =>
    subst empty
    apply (reads_emptyObject (by simp [IsGap] : IsGap ['\n'])).imp
    rintro _ e ⟨span, rfl⟩
    exact ⟨span, [], rfl, .nil⟩
  case neg =>
    have object := reads_object (by simp [IsGap] : IsGap ['\n']) listTail_brace (Nat.le_refl 1)
      (fun entry : String × String => (renderEntry entry.1 entry.2).toList)
      (fun _ member entry => ∃ span span' value,
        member = .field span (.expression (.string span' entry.1)) false value) empty (by
      intro entry member depth enough
      rw [toList_renderEntry] at enough ⊢
      apply (Reads.member (readsKey_quoted entry.1) (each entry member) _ (by
        rw [List.length_append, List.length_cons, List.length_cons] at enough
        omega)).imp
      rintro _ member ⟨span, _, value, rfl, ⟨span', rfl⟩, -⟩
      exact ⟨span, span', value, rfl⟩)
    apply object.imp
    rintro _ e ⟨span, members, rfl, read⟩
    refine ⟨span, members, rfl, ?_⟩
    exact List.forall₂_map_right_iff.mpr read

/-! Helpers. -/

/-- The text is one value that goes on with members, so no pattern. -/
structure IsLookUp (text : List Char) : Prop where
  isValue : IsValue text
  noPattern : NoPattern text

theorem isLookUp_access {kind : HelperKind} (isName : Text.isIdentifier kind.tag = true)
    (arguments : List String) (nonempty : arguments ≠ [])
    (each : ∀ argument ∈ arguments, IsValue argument.toList) :
    IsLookUp (renderAccess currentLayer kind (String.intercalate ", " arguments)).toList where
  isValue := by
    rw [toList_renderAccess]
    apply isValue_call (by decide) _ _ _ nonempty each
    intro name member
    simp only [accessPath, List.mem_cons, List.not_mem_nil, or_false] at member
    rcases member with rfl | rfl | rfl
    · decide
    · decide
    · exact isName
  noPattern := by
    have path := noPattern_path (by decide : Text.isIdentifier "figma" = true)
      (by decide : Text.isIdentifier "currentLayer" = true)
      (membersText ["__properties__", kind.tag] ++
        '(' :: Parser.joined [' '] [')'] (arguments.map String.toList))
    rw [toList_renderAccess, callText, argumentsText, pathText, accessPath, membersText]
    simpa using path

theorem isLookUp_single {kind : HelperKind} (isName : Text.isIdentifier kind.tag = true)
    (property : String) :
    IsLookUp (renderAccess currentLayer kind (Text.quotedSingle property)).toList := by
  have access := isLookUp_access isName [Text.quotedSingle property] (by simp)
    (by simpa [toList_quotedSingle] using isValue_quoted (.inr rfl) property)
  simpa using access

theorem isLookUp_mapped {kind : HelperKind} (isName : Text.isIdentifier kind.tag = true)
    (property : String) (entries : List (String × String))
    (each : ∀ entry ∈ entries, IsValue entry.2.toList) :
    IsLookUp (renderAccess currentLayer kind (Text.quotedSingle property ++ ", " ++
      renderObject (entries.map fun entry => renderEntry entry.1 entry.2))).toList := by
  generalize object : renderObject (entries.map fun entry => renderEntry entry.1 entry.2) = text
  have isObject : IsValue text.toList := by
    rw [← object]
    exact (reads_renderObject entries each).isValue
  have access := isLookUp_access isName [Text.quotedSingle property, text] (by simp) (by
    intro argument member
    rcases List.mem_cons.mp member with rfl | later
    · rw [toList_quotedSingle]
      exact isValue_quoted (.inr rfl) property
    · obtain rfl := List.mem_singleton.mp later
      exact isObject)
  exact access

/-- The calls that keep the parts of a class name that are there, as one text. -/
def joinText : List Char := ".filter(v => !!v).join(' ')".toList

theorem callRun_join (depth start offset waiting : Nat) {e : Expr}
    (plain : ∀ span inner types, e ≠ .instantiation span inner types) {rest : List Char}
    (closes : Closes rest) : ∃ e', Grammar.CallRun (Grammar.rules (depth + 40)) .module start 2 e
      (.behind ⟨offset, joinText ++ rest⟩ waiting) e' (.behind ⟨offset + 27, rest⟩ waiting) := by
  have filter := Grammar.memberRest_names (r := Grammar.rules (depth + 40)) (c := .module)
    start (by rintro c ⟨⟩; decide : EndsName ("(v => !!v).join(' ')".toList ++ rest)) waiting
    (fun _ _ => rfl) ["filter"] (by decide) (by rw [Grammar.bound_rules]; simp) e offset
  obtain ⟨items, present⟩ := arguments_present (depth + 30) (offset + 7) (offset + 7) waiting
    (".join(' ')".toList ++ rest)
  have callee : ∀ span inner types, Grammar.dotted start offset e ["filter"] ≠
      .instantiation span inner types := dotted_ne_instantiation start ["filter"] e plain offset
  have call : ∀ span inner types, Expr.call ⟨start, offset + 17⟩
      (Grammar.dotted start offset e ["filter"]) [] items ≠ .instantiation span inner types := by
    rintro _ _ _ ⟨⟩
  have blank : ∀ text ∈ [Text.quotedSingle " "], IsValue text.toList := by
    intro text member
    obtain rfl := List.mem_singleton.mp member
    rw [toList_quotedSingle]
    exact isValue_quoted (.inr rfl) " "
  have enough : 8 * (argumentsText ([Text.quotedSingle " "].map String.toList)).length ≤
      depth + 40 + 4 := by
    have length : (argumentsText ([Text.quotedSingle " "].map String.toList)).length = 5 := by
      decide
    omega
  obtain ⟨callee', items', run, -⟩ := callRun_of_members call
    (by decide : ∀ name ∈ ["join"], Text.isIdentifier name = true) (by simp) String.toList (fun _ _ _ => True) blank (by simp : ["join"].length < depth + 40)
    enough start (offset + 17) waiting rest
  have last := run 0 _ _ (.stop (Grammar.memberRest_of_stops (Nat.succ_pos _) (closes.stops _ _ _) _)
    (closes.stops _ _ _))
  exact ⟨_, .call filter (Grammar.callStep_of_arguments callee present) last⟩

theorem toList_classNames (parts : List String) :
    ("[" ++ String.intercalate ", " parts ++ "].filter(v => !!v).join(' ')").toList =
      '[' :: (Parser.joined [' '] [']'] (parts.map String.toList) ++ joinText) := by
  have tail : "].filter(v => !!v).join(' ')".toList = ']' :: joinText := by decide
  rw [String.toList_append, String.toList_append, tail, String.toList_intercalate,
    ← Parser.intercalate_append]
  simp

theorem isLookUp_classNames (parts : List String) (each : ∀ part ∈ parts, IsLookUp part.toList) :
    IsLookUp ("[" ++ String.intercalate ", " parts ++ "].filter(v => !!v).join(' ')").toList where
  isValue := by
    rw [toList_classNames, ← List.cons_append]
    apply reads_of_operand
    case starts => exact fun _ _ _ => rfl
    case opens => exact fun _ _ _ => (by decide : StartsOperand (.mark "["))
    case nonempty => exact List.cons_ne_nil _ _
    case read =>
      intro depth previous offset waiting rest enough closes
      have long : joinText.length = 27 := by decide
      rw [List.length_append, long] at enough
      have gap : IsGap [' '] := by simp [IsGap]
      obtain ⟨items, array, -⟩ := primary_of_array gap rfl String.toList (fun _ _ _ => True) parts
        (fun part member => (each part member).isValue) depth (by omega) previous offset
        waiting (joinText ++ rest)
      obtain ⟨depth, rfl⟩ : ∃ less, depth = less + 40 := ⟨depth - 40, by omega⟩
      obtain ⟨e, run⟩ := callRun_join depth offset (offset + Text.byteSize
        ('[' :: Parser.joined [' '] [']'] (parts.map String.toList))) waiting
        (e := .array ⟨offset, offset + Text.byteSize
          ('[' :: Parser.joined [' '] [']'] (parts.map String.toList))⟩ items)
        (by rintro _ _ _ ⟨⟩) closes
      have size : Text.byteSize joinText = 27 := by decide
      rw [List.append_assoc, Text.byteSize_append, size, ← Nat.add_assoc]
      have operand := Grammar.operandRule_of_run (r := Grammar.rules (depth + 40))
        (by rw [Grammar.bound_rules]; omega) (State.start_facing (fun _ _ => rfl) _ _ _)
        (by rw [Grammar.bound_rules]; exact array) run
      exact ⟨e, operand, fun _ _ => trivial⟩
  noPattern := by
    have array := noPattern_array [' '] (by decide : Text.isIdentifier "filter" = true)
      "(v => !!v).join(' ')".toList String.toList (fun _ _ _ => True) parts
      (fun part member => (each part member).isValue) fun part member => (each part member).noPattern
    rw [toList_classNames]
    exact array

theorem toList_layers (layers : List String) :
    ("[" ++ String.intercalate "," (layers.map Text.quoted) ++ "]").toList =
      '[' :: Parser.joined [] [']'] (layers.map fun layer => (Text.quoted layer).toList) := by
  rw [← Parser.intercalate_append]
  simp [String.toList_intercalate, Function.comp_def]

theorem isValue_layers (layers : List String) :
    IsValue ("[" ++ String.intercalate "," (layers.map Text.quoted) ++ "]").toList := by
  have array := reads_array isGap_nil rfl (fun layer => (Text.quoted layer).toList)
    (fun _ _ _ => True) layers fun layer _ => by
      rw [toList_quoted]
      exact isValue_quoted (.inl rfl) layer
  rw [toList_layers]
  exact array.isValue

/-- What a layer of text is found by. -/
def criteria (inner : String) : List (String × List Char) :=
  [("name", quotedChars '\'' inner), ("type", quotedChars '"' "TEXT")]

def criteriaText (inner : String) : List Char :=
  '\x7b' :: ([' '] ++ Parser.joined [' '] [' ', '\x7d']
    ((criteria inner).map fun entry => entry.1.toList ++ ':' :: ' ' :: entry.2))

theorem isValue_criteria (inner : String) : IsValue (criteriaText inner) := by
  have each : ∀ entry ∈ criteria inner, Text.isIdentifier entry.1 = true ∧ IsValue entry.2 := by
    intro entry member
    rcases List.mem_cons.mp member with rfl | later
    · exact ⟨(by decide : Text.isIdentifier "name" = true), isValue_quoted (.inr rfl) inner⟩
    · obtain rfl := List.mem_singleton.mp later
      exact ⟨(by decide : Text.isIdentifier "type" = true), isValue_quoted (.inl rfl) "TEXT"⟩
  have object := reads_object (by simp [IsGap] : IsGap [' ']) listTail_spacedBrace (by decide)
    (fun entry : String × List Char => entry.1.toList ++ ':' :: ' ' :: entry.2)
    (fun _ _ _ => True) (List.cons_ne_nil _ _ : criteria inner ≠ []) (by
    intro entry member depth enough
    rw [List.length_append, List.length_cons, List.length_cons] at enough
    obtain ⟨isName, isValue⟩ := each entry member
    exact (Reads.member (readsKey_name isName) isValue _ (by omega)).imp fun _ _ _ => trivial)
  exact object.isValue

/-- The members of the current layer that find an inner one. -/
def findPath : List String := ["currentLayer", "__findChildWithCriteria__"]

theorem toList_textContent (inner : String) :
    (currentLayer ++ ".__findChildWithCriteria__(\x7b name: " ++ Text.quotedSingle inner ++
      ", type: \"TEXT\" \x7d).textContent").toList =
      callText "figma" findPath [criteriaText inner] ++ membersText ["textContent"] := by
  have head : (currentLayer ++ ".__findChildWithCriteria__(\x7b name: ").toList =
      pathText "figma" findPath ++ "(\x7b name: ".toList := by decide
  have tail : ", type: \"TEXT\" \x7d).textContent".toList =
      ", type: ".toList ++ (quotedChars '"' "TEXT" ++ " \x7d)".toList ++
        membersText ["textContent"]) := by decide
  rw [String.toList_append, String.toList_append, head, tail, toList_quotedSingle]
  simp [callText, argumentsText, criteriaText, criteria, Parser.joined]

theorem isLookUp_textContent (inner : String) :
    IsLookUp (currentLayer ++ ".__findChildWithCriteria__(\x7b name: " ++
      Text.quotedSingle inner ++ ", type: \"TEXT\" \x7d).textContent").toList where
  isValue := by
    have isOperand : IsOperandName "figma" := by decide
    have areNames : ∀ name ∈ findPath, Text.isIdentifier name = true := by decide
    have starts (rest : List Char) : StartsToken
        (callText "figma" findPath [criteriaText inner] ++ membersText ["textContent"] ++ rest) := by
      rw [callText, List.append_assoc, List.append_assoc]
      exact startsToken_pathText isOperand _ _
    have starts' (rest : List Char) : StartsToken
        (callText "figma" findPath [criteriaText inner] ++ (membersText ["textContent"] ++ rest)) := by
      rw [← List.append_assoc]
      exact starts rest
    rw [toList_textContent]
    apply reads_of_operand starts
    case opens =>
      intro offset rest _
      rw [callText, List.append_assoc, List.append_assoc]
      exact startsOperand_pathText isOperand _ (by rintro c ⟨⟩; decide) offset
    case nonempty => simp [callText, argumentsText]
    case read =>
      intro depth previous offset waiting rest enough closes
      rw [List.length_append] at enough
      have long : (membersText ["textContent"]).length = 12 := by decide
      have each : ∀ text ∈ [criteriaText inner], Reads text fun _ _ => True := by
        intro text member
        obtain rfl := List.mem_singleton.mp member
        exact isValue_criteria inner
      obtain ⟨e, s, callee, items, first, run, -⟩ := callRun_of_arguments isOperand areNames
        (by simp : [criteriaText inner] ≠ []) id (fun _ _ _ => True) each depth
        (by rw [List.map_id]; omega) false previous offset waiting
        (membersText ["textContent"] ++ rest)
      rw [List.map_id] at first run
      have members := Grammar.memberRest_names (r := Grammar.rules depth) (c := .module)
        offset closes.endsName waiting
        (fun _ _ => Grammar.memberStep_of_stops (closes.stops _ _ _) true _) ["textContent"]
        (by decide) (by rw [Grammar.bound_rules, List.length_singleton]; omega)
        (.call ⟨offset, offset + Text.byteSize (callText "figma" findPath [criteriaText inner])⟩
          callee [] items)
        (offset + Text.byteSize (callText "figma" findPath [criteriaText inner]))
      have operand := Grammar.operandRule_of_run (r := Grammar.rules depth)
        (by rw [Grammar.bound_rules]; omega)
        (State.start_at (starts' rest) false previous offset waiting)
        (by rw [Grammar.bound_rules]; exact first)
        (run 0 _ _ (.stop members (closes.stops _ _ _)))
      rw [State.facing_eq_at (starts rest), List.append_assoc, Text.byteSize_append,
        ← Nat.add_assoc]
      exact ⟨_, operand, fun _ _ => trivial⟩
  noPattern := by
    have path := noPattern_path (by decide : Text.isIdentifier "figma" = true)
      (by decide : Text.isIdentifier "currentLayer" = true)
      (membersText ["__findChildWithCriteria__"] ++ (argumentsText [criteriaText inner] ++
        membersText ["textContent"]))
    rw [toList_textContent, callText, pathText, findPath, membersText]
    simpa using path

/-! All helpers. -/

mutual

theorem isLookUp_render : ∀ (helper : Helper) {text : String},
    helper.render currentLayer = .ok text → IsLookUp text.toList
  | .boolean property none, text, ok => by
    rw [Helper.render] at ok
    obtain rfl := Except.ok.inj ok
    exact isLookUp_single (by decide) property
  | .boolean property (some values), text, ok => by
    rw [Helper.render] at ok
    obtain ⟨entries, read, result⟩ := exists_of_bind ok
    obtain rfl := Except.ok.inj result
    obtain ⟨rendered, rfl, -, each⟩ := exists_of_renderValues values read
    exact isLookUp_mapped (by decide) property rendered each
  | .enum property values, text, ok => by
    rw [Helper.render] at ok
    obtain ⟨entries, read, result⟩ := exists_of_bind ok
    obtain rfl := Except.ok.inj result
    obtain ⟨rendered, rfl, -, each⟩ := exists_of_renderValues values read
    exact isLookUp_mapped (by decide) property rendered each
  | .string property, text, ok => by
    rw [Helper.render] at ok
    obtain rfl := Except.ok.inj ok
    exact isLookUp_single (by decide) property
  | .swap property, text, ok => by
    rw [Helper.render] at ok
    obtain rfl := Except.ok.inj ok
    exact isLookUp_single (by decide) property
  | .children layers, text, ok => by
    rw [Helper.render] at ok
    obtain rfl := Except.ok.inj ok
    exact isLookUp_access (by decide)
      ["[" ++ String.intercalate "," (layers.map Text.quoted) ++ "]"] (by simp) (by
        intro argument member
        obtain rfl := List.mem_singleton.mp member
        exact isValue_layers layers)
  | .nestedProps inner props, text, ok => by
    rw [Helper.render] at ok
    cases ok
  | .className parts, text, ok => by
    rw [Helper.render] at ok
    obtain ⟨texts, read, result⟩ := exists_of_bind ok
    obtain rfl := Except.ok.inj result
    exact isLookUp_classNames texts (isLookUp_renderParts parts read)
  | .textContent inner, text, ok => by
    rw [Helper.render] at ok
    obtain rfl := Except.ok.inj ok
    exact isLookUp_textContent inner

theorem exists_of_renderValues : ∀ (values : List (String × Value)) {entries : List String},
    renderValues currentLayer values = .ok entries →
      ∃ rendered : List (String × String),
        entries = rendered.map (fun entry => renderEntry entry.1 entry.2) ∧
        Dictionary.keys rendered = Dictionary.keys values ∧
        ∀ entry ∈ rendered, IsValue entry.2.toList
  | [], _, ok => by
    rw [renderValues] at ok
    obtain rfl := Except.ok.inj ok
    exact ⟨[], rfl, rfl, fun _ member => absurd member List.not_mem_nil⟩
  | (key, .helper helper) :: rest, _, ok => by
    rw [renderValues] at ok
    obtain ⟨value, first, others⟩ := exists_of_bind ok
    obtain ⟨entries, read, result⟩ := exists_of_bind others
    obtain rfl := Except.ok.inj result
    obtain ⟨rendered, rfl, keys, each⟩ := exists_of_renderValues rest read
    refine ⟨(key, value) :: rendered, rfl, congrArg (key :: ·) keys, ?_⟩
    intro entry member
    rcases List.mem_cons.mp member with rfl | later
    · exact (isLookUp_render helper first).isValue
    · exact each entry later
  | (key, .literal literal) :: rest, _, ok => by
    rw [renderValues] at ok
    obtain ⟨entries, read, result⟩ := exists_of_bind ok
    obtain rfl := Except.ok.inj result
    obtain ⟨rendered, rfl, keys, each⟩ := exists_of_renderValues rest read
    refine ⟨(key, literal.render) :: rendered, rfl, congrArg (key :: ·) keys, ?_⟩
    intro entry member
    rcases List.mem_cons.mp member with rfl | later
    · exact isValue_render_literal literal
    · exact each entry later

theorem isLookUp_renderParts : ∀ (parts : List ClassPart) {texts : List String},
    renderParts currentLayer parts = .ok texts → ∀ text ∈ texts, IsLookUp text.toList
  | [], _, ok => by
    rw [renderParts] at ok
    obtain rfl := Except.ok.inj ok
    exact fun _ member => absurd member List.not_mem_nil
  | .literal part :: rest, _, ok => by
    rw [renderParts] at ok
    obtain ⟨texts, read, result⟩ := exists_of_bind ok
    obtain rfl := Except.ok.inj result
    intro text member
    rcases List.mem_cons.mp member with rfl | later
    · rw [toList_quoted]
      exact ⟨isValue_quoted (.inl rfl) part, noPattern_quoted (.inl rfl) part⟩
    · exact isLookUp_renderParts rest read text later
  | .helper helper :: rest, _, ok => by
    rw [renderParts] at ok
    obtain ⟨first, called, others⟩ := exists_of_bind ok
    obtain ⟨texts, read, result⟩ := exists_of_bind others
    obtain rfl := Except.ok.inj result
    intro text member
    rcases List.mem_cons.mp member with rfl | later
    · exact isLookUp_render helper called
    · exact isLookUp_renderParts rest read text later

end

theorem exists_of_renderProps : ∀ (props : PropMapping) {entries : List String},
    renderProps currentLayer props = .ok entries →
      ∃ rendered : List (String × String),
        entries = rendered.map (fun entry => renderEntry entry.1 entry.2) ∧
        Dictionary.keys rendered = Dictionary.keys props ∧
        ∀ entry ∈ rendered, IsLookUp entry.2.toList
  | [], _, ok => by
    rw [renderProps] at ok
    obtain rfl := Except.ok.inj ok
    exact ⟨[], rfl, rfl, fun _ member => absurd member List.not_mem_nil⟩
  | (key, helper) :: rest, _, ok => by
    rw [renderProps] at ok
    obtain ⟨value, first, others⟩ := exists_of_bind ok
    obtain ⟨entries, read, result⟩ := exists_of_bind others
    obtain rfl := Except.ok.inj result
    obtain ⟨rendered, rfl, keys, each⟩ := exists_of_renderProps rest read
    refine ⟨(key, value) :: rendered, rfl, congrArg (key :: ·) keys, ?_⟩
    intro entry member
    rcases List.mem_cons.mp member with rfl | later
    · exact isLookUp_render helper first
    · exact each entry later

/-- A prop mapping renders to an object literal with its keys as strings, in its order. -/
theorem reads_renderProps {props : PropMapping} {text : String}
    (rendered : props.render none = .ok text) :
    NoArrow text.toList ∧ Reads text.toList fun _ e => ∃ span members,
      e = .object span members ∧ HaveKeys members (Dictionary.keys props) := by
  rw [PropMapping.render_layerOf] at rendered
  obtain ⟨entries, read, rfl⟩ := exists_of_map rendered
  obtain ⟨values, rfl, keys, each⟩ := exists_of_renderProps props read
  rw [← keys]
  refine ⟨?_, reads_renderObject values fun entry member => (each entry member).isValue⟩
  by_cases empty : values = []
  case pos =>
    subst empty
    exact noArrow_emptyLine
  case neg =>
    rw [toList_renderObject, List.map_map]
    have members := noArrow_of_members (by simp [IsGap] : IsGap ['\n']) listTail_brace.closes
      (fun entry : String × String => quotedChars '"' entry.1) (fun entry => entry.2.toList)
      (fun entry _ => readsKey_quoted entry.1) (fun entry member => (each entry member).isValue)
      (fun entry member => (each entry member).noPattern) empty
    simpa [Function.comp_def, toList_renderEntry] using members

end DesignLink
