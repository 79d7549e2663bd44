import DesignLink.CommandLine.Perform
import DesignLink.Proofs.Declaration.RoundTrip
import DesignLink.Proofs.Mapping.Lossless
import DesignLink.Proofs.Mapping.Unambiguous
import DesignLink.Proofs.Wire.Pretty

/-!
Mappings that go through a document before they are rendered. What is received has the shape of what
was written, only its numbers may be others; so it is rendered to the same error, and to the same
code exactly if no number became another value.
-/

namespace DesignLink

open Script Wire

/-! Values of one shape. -/

/-- Two values that fail alike, and that are told apart by what is written for them. -/
structure SameShape {α : Type} (render : α → Except UnsupportedNesting String)
    (Follows : List Char → Prop) (a b : α) : Prop where
  error : errorOf? (render b) = errorOf? (render a)
  told : ∀ text text' rest rest', Written render a text → Written render b text' →
    Follows rest → Follows rest' → text ++ rest = text' ++ rest' → a = b ∧ rest = rest'

section Shapes

variable {layer : String}

abbrev SameEntries {α : Type} (render : α → Except UnsupportedNesting String) :
    List (String × α) → List (String × α) → Prop :=
  List.Forall₂ fun entry entry' =>
    entry.1 = entry'.1 ∧ SameShape render (FollowsItem '\x7d') entry.2 entry'.2

theorem joined_inj_of_forall₂ {α : Type} {Writes : α → List Char → Prop} {gap : List Char}
    {close : Char} {items others : List α}
    (each : List.Forall₂ (fun a b => ∀ text text' rest rest', Writes a text → Writes b text' →
      FollowsItem close rest → FollowsItem close rest' → text ++ rest = text' ++ rest' →
        a = b ∧ rest = rest') items others) :
    ∀ {texts texts' : List (List Char)} {rest rest' : List Char},
      List.Forall₂ Writes items texts → List.Forall₂ Writes others texts' →
      Parser.joined gap [close] texts ++ rest = Parser.joined gap [close] texts' ++ rest' →
      items = others ∧ rest = rest' := by
  induction each with
  | nil =>
    intro texts texts' rest rest' written written' same
    cases written
    cases written'
    exact ⟨rfl, (List.cons.inj same).2⟩
  | cons first later ih =>
    intro texts texts' rest rest' written written' same
    cases written with
    | cons head tail =>
      cases written' with
      | cons head' tail' =>
        rw [joined_cons, joined_cons, List.append_assoc, List.append_assoc] at same
        obtain ⟨rfl, behind⟩ := first _ _ _ _ head head' (followsItem_behindItem _ _ _ _)
          (followsItem_behindItem _ _ _ _) same
        cases later with
        | nil =>
          cases tail
          cases tail'
          exact ⟨rfl, (List.cons.inj behind).2⟩
        | cons second others =>
          cases tail with
          | cons next more =>
            cases tail' with
            | cons next' more' =>
              rw [behindItem_cons, behindItem_cons] at behind
              obtain ⟨equal, same⟩ := ih (.cons next more) (.cons next' more')
                (List.append_cancel_left (List.cons.inj behind).2)
              exact ⟨congrArg _ equal, same⟩

theorem SameEntries.inj {α : Type} {render : α → Except UnsupportedNesting String}
    {entries others : List (String × α)} (same : SameEntries render entries others)
    {texts texts' : List (List Char)} {rest rest' : List Char}
    (written : List.Forall₂ (WrittenEntry render) entries texts)
    (written' : List.Forall₂ (WrittenEntry render) others texts')
    (equal : Parser.joined ['\n'] ['\x7d'] texts ++ rest =
      Parser.joined ['\n'] ['\x7d'] texts' ++ rest') : entries = others ∧ rest = rest' := by
  refine joined_inj_of_forall₂ (same.imp ?_) written written' equal
  rintro ⟨key, value⟩ ⟨key', value'⟩ ⟨sameKey, shape⟩ text text' rest rest' ⟨first, ok, rfl⟩
    ⟨second, ok', rfl⟩ follows follows' texts
  rw [toList_renderEntry, toList_renderEntry, List.append_assoc, List.append_assoc] at texts
  obtain ⟨-, behind⟩ := quotedChars_append_inj (.inl rfl) texts
  obtain ⟨sameValue, after⟩ := shape.told _ _ _ _ ⟨first, ok, rfl⟩ ⟨second, ok', rfl⟩ follows
    follows' (List.cons.inj (List.cons.inj behind).2).2
  exact ⟨Prod.ext sameKey sameValue, after⟩

theorem errorOf?_renderValues {values others : List (String × Value)}
    (same : SameEntries (Value.render layer) values others) :
    errorOf? (renderValues layer others) = errorOf? (renderValues layer values) := by
  induction same with
  | nil => rfl
  | @cons entry other values others first later ih =>
    rw [renderValues_cons, renderValues_cons, errorOf?_both, errorOf?_both, first.2.error, ih]

theorem errorOf?_renderParts {parts others : List ClassPart}
    (same : List.Forall₂ (SameShape (ClassPart.render layer) (FollowsItem ']')) parts others) :
    errorOf? (renderParts layer others) = errorOf? (renderParts layer parts) := by
  induction same with
  | nil => rfl
  | cons first later ih =>
    rw [renderParts_cons, renderParts_cons, errorOf?_both, errorOf?_both, first.error, ih]

theorem errorOf?_renderProps {props others : PropMapping}
    (same : SameEntries (Helper.render layer) props others) :
    errorOf? (renderProps layer others) = errorOf? (renderProps layer props) := by
  induction same with
  | nil => rfl
  | cons first later ih =>
    rw [renderProps, renderProps, errorOf?_both, errorOf?_both, first.2.error, ih]

theorem SameShape.refl {α : Type} (render : α → Except UnsupportedNesting String)
    (Follows : List Char → Prop) (a : α) : SameShape render Follows a a where
  error := rfl
  told := by
    rintro text text' rest rest' ⟨value, ok, rfl⟩ ⟨value', ok', rfl⟩ - - same
    obtain rfl := Except.ok.inj (ok.symm.trans ok')
    exact ⟨rfl, List.append_cancel_left same⟩

theorem SameShape.weaken {α : Type} {render : α → Except UnsupportedNesting String} {a b : α}
    (same : SameShape render Anything a b) {Follows : List Char → Prop} :
    SameShape render Follows a b where
  error := same.error
  told := fun _ _ _ _ written written' _ _ equal =>
    same.told _ _ _ _ written written' trivial trivial equal

theorem sameShape_literal (literal other : Literal) :
    SameShape (Value.render layer) (FollowsItem '\x7d') (.literal literal) (.literal other) where
  error := rfl
  told := by
    rintro text text' rest rest' ⟨value, ok, rfl⟩ ⟨value', ok', rfl⟩ follows follows' same
    obtain rfl := Except.ok.inj ok
    obtain rfl := Except.ok.inj ok'
    obtain ⟨equal, behind⟩ := literal_inj follows follows' same
    exact ⟨congrArg _ equal, behind⟩

theorem sameShape_value {helper other : Helper}
    (same : SameShape (Helper.render layer) Anything helper other) :
    SameShape (Value.render layer) (FollowsItem '\x7d') (.helper helper) (.helper other) where
  error := same.error
  told := by
    intro text text' rest rest' written written' _ _ equal
    obtain ⟨equal, behind⟩ := same.told _ _ _ _ written written' trivial trivial equal
    exact ⟨congrArg _ equal, behind⟩

theorem sameShape_part {helper other : Helper}
    (same : SameShape (Helper.render layer) Anything helper other) :
    SameShape (ClassPart.render layer) (FollowsItem ']') (.helper helper) (.helper other) where
  error := same.error
  told := by
    intro text text' rest rest' written written' _ _ equal
    obtain ⟨equal, behind⟩ := same.told _ _ _ _ written written' trivial trivial equal
    exact ⟨congrArg _ equal, behind⟩

theorem sameShape_nestedProps (inner : String) (props others : List (String × Helper)) :
    SameShape (Helper.render layer) Anything (.nestedProps inner props)
      (.nestedProps inner others) where
  error := by rw [Helper.render, Helper.render]
  told := by
    rintro text text' rest rest' ⟨value, ok, rfl⟩
    rw [Helper.render] at ok
    cases ok

theorem toList_mappedAccess (kind : HelperKind) (property : String) (entries : List String)
    (rest : List Char) : (renderAccess layer kind
      (Text.quotedSingle property ++ ", " ++ renderObject entries)).toList ++ rest =
      (layer ++ ".__properties__." ++ kind.tag ++ "(" ++ Text.quotedSingle property ++
        ", \x7b\n").toList ++ (Parser.joined ['\n'] ['\x7d'] (entries.map String.toList) ++
        ')' :: rest) := by
  simp [renderAccess, toList_renderObject]

theorem sameShape_mapped {kind : HelperKind} {property : String}
    (around : List (String × Value) → Helper)
    (renders : ∀ values, (around values).render layer = (do
      let entries ← renderValues layer values
      return renderAccess layer kind (Text.quotedSingle property ++ ", " ++ renderObject entries)))
    {values others : List (String × Value)}
    (same : SameEntries (Value.render layer) values others) :
    SameShape (Helper.render layer) Anything (around values) (around others) where
  error := by rw [renders, renders, errorOf?_map, errorOf?_map, errorOf?_renderValues same]
  told := by
    rintro text text' rest rest' ⟨value, ok, rfl⟩ ⟨value', ok', rfl⟩ - - equal
    rw [renders] at ok ok'
    obtain ⟨entries, read, result⟩ := exists_of_bind ok
    obtain ⟨entries', read', result'⟩ := exists_of_bind ok'
    obtain rfl := Except.ok.inj result
    obtain rfl := Except.ok.inj result'
    rw [toList_mappedAccess, toList_mappedAccess] at equal
    obtain ⟨rfl, behind⟩ := same.inj (written_renderValues read) (written_renderValues read')
      (List.append_cancel_left equal)
    exact ⟨rfl, (List.cons.inj behind).2⟩

theorem sameShape_className {parts others : List ClassPart}
    (same : List.Forall₂ (SameShape (ClassPart.render layer) (FollowsItem ']')) parts others) :
    SameShape (Helper.render layer) Anything (.className parts) (.className others) where
  error := by
    rw [Helper.render, Helper.render, layerOf_some, errorOf?_map, errorOf?_map,
      errorOf?_renderParts same]
  told := by
    rintro text text' rest rest' ⟨value, ok, rfl⟩ ⟨value', ok', rfl⟩ - - equal
    rw [Helper.render] at ok ok'
    obtain ⟨texts, read, result⟩ := exists_of_bind ok
    obtain ⟨texts', read', result'⟩ := exists_of_bind ok'
    obtain rfl := Except.ok.inj result
    obtain rfl := Except.ok.inj result'
    rw [toList_classNames, toList_classNames, List.cons_append, List.cons_append,
      List.append_assoc, List.append_assoc] at equal
    obtain ⟨rfl, behind⟩ := joined_inj_of_forall₂ (same.imp fun _ _ shape => shape.told)
      (written_renderParts read) (written_renderParts read') (List.cons.inj equal).2
    exact ⟨rfl, List.append_cancel_left behind⟩

mutual

theorem sameShape_received (layer : String) : ∀ {helper other : Helper},
    helper.received = some other → SameShape (Helper.render layer) Anything helper other
  | .boolean property none, other, received => by
    obtain rfl := Option.some.inj received
    exact .refl _ _ _
  | .boolean property (some values), other, received => by
    rw [Helper.received] at received
    obtain ⟨others, inside, rfl⟩ := Option.map_eq_some_iff.mp received
    exact sameShape_mapped (fun values => .boolean property (some values))
      (fun values => by rw [Helper.render, layerOf_some]) (sameEntries_receivedValues layer inside)
  | .enum property values, other, received => by
    rw [Helper.received] at received
    obtain ⟨others, inside, rfl⟩ := Option.map_eq_some_iff.mp received
    exact sameShape_mapped (.enum property) (fun values => by rw [Helper.render, layerOf_some])
      (sameEntries_receivedValues layer inside)
  | .nestedProps inner props, other, received => by
    rw [Helper.received] at received
    obtain ⟨others, -, rfl⟩ := Option.map_eq_some_iff.mp received
    exact sameShape_nestedProps inner props others
  | .className parts, other, received => by
    rw [Helper.received] at received
    obtain ⟨others, inside, rfl⟩ := Option.map_eq_some_iff.mp received
    exact sameShape_className (sameShape_receivedParts layer inside)
  | .string _, other, received => by
    obtain rfl := Option.some.inj received
    exact .refl _ _ _
  | .swap _, other, received => by
    obtain rfl := Option.some.inj received
    exact .refl _ _ _
  | .children _, other, received => by
    obtain rfl := Option.some.inj received
    exact .refl _ _ _
  | .textContent _, other, received => by
    obtain rfl := Option.some.inj received
    exact .refl _ _ _

theorem sameEntries_receivedValues (layer : String) : ∀ {values others : List (String × Value)},
    receivedValues values = some others → SameEntries (Value.render layer) values others
  | [], _, received => by
    obtain rfl := Option.some.inj received
    exact .nil
  | (key, .helper helper) :: rest, _, received => by
    rw [receivedValues] at received
    obtain ⟨other, first, later⟩ := Option.bind_eq_some_iff.mp received
    obtain ⟨others, inside, rfl⟩ := Option.map_eq_some_iff.mp later
    exact .cons ⟨rfl, sameShape_value (sameShape_received layer first)⟩
      (sameEntries_receivedValues layer inside)
  | (key, .literal literal) :: rest, _, received => by
    rw [receivedValues] at received
    obtain ⟨other, -, later⟩ := Option.bind_eq_some_iff.mp received
    obtain ⟨others, inside, rfl⟩ := Option.map_eq_some_iff.mp later
    exact .cons ⟨rfl, sameShape_literal literal other⟩ (sameEntries_receivedValues layer inside)

theorem sameShape_receivedParts (layer : String) : ∀ {parts others : List ClassPart},
    receivedParts parts = some others →
      List.Forall₂ (SameShape (ClassPart.render layer) (FollowsItem ']')) parts others
  | [], _, received => by
    obtain rfl := Option.some.inj received
    exact .nil
  | .literal text :: rest, _, received => by
    rw [receivedParts] at received
    obtain ⟨others, inside, rfl⟩ := Option.map_eq_some_iff.mp received
    exact .cons (.refl _ _ _) (sameShape_receivedParts layer inside)
  | .helper helper :: rest, _, received => by
    rw [receivedParts] at received
    obtain ⟨other, first, later⟩ := Option.bind_eq_some_iff.mp received
    obtain ⟨others, inside, rfl⟩ := Option.map_eq_some_iff.mp later
    exact .cons (sameShape_part (sameShape_received layer first))
      (sameShape_receivedParts layer inside)

end

theorem sameEntries_receivedProps (layer : String) : ∀ {props others : List (String × Helper)},
    receivedProps props = some others → SameEntries (Helper.render layer) props others
  | [], _, received => by
    obtain rfl := Option.some.inj received
    exact .nil
  | (key, helper) :: rest, _, received => by
    rw [receivedProps] at received
    obtain ⟨other, first, later⟩ := Option.bind_eq_some_iff.mp received
    obtain ⟨others, inside, rfl⟩ := Option.map_eq_some_iff.mp later
    exact .cons ⟨rfl, (sameShape_received layer first).weaken⟩
      (sameEntries_receivedProps layer inside)

end Shapes

/-! What is received at all. -/

theorem isSome_bind_map {α β γ : Type} (first : Option α) (others : Option β) (f : α → β → γ) :
    (first.bind fun a => others.map (f a)).isSome = true ↔
      first.isSome = true ∧ others.isSome = true := by
  cases first <;> cases others <;> simp

mutual

theorem isSome_received_iff : ∀ helper : Helper, helper.received.isSome = true ↔
    ∀ literal ∈ helper.literals, literal.received.isSome = true
  | .boolean _ none => by simp [Helper.received, Helper.literals]
  | .boolean _ (some values) => by
    rw [Helper.received, Helper.literals, ← isSome_receivedValues_iff values, Option.isSome_map]
  | .enum _ values => by
    rw [Helper.received, Helper.literals, ← isSome_receivedValues_iff values, Option.isSome_map]
  | .string _ => by simp [Helper.received, Helper.literals]
  | .swap _ => by simp [Helper.received, Helper.literals]
  | .children _ => by simp [Helper.received, Helper.literals]
  | .nestedProps _ props => by
    rw [Helper.received, Helper.literals, ← isSome_receivedProps_iff props, Option.isSome_map]
  | .className parts => by
    rw [Helper.received, Helper.literals, ← isSome_receivedParts_iff parts, Option.isSome_map]
  | .textContent _ => by simp [Helper.received, Helper.literals]

theorem isSome_receivedValues_iff : ∀ values : List (String × Value),
    (receivedValues values).isSome = true ↔
      ∀ literal ∈ literalsOfValues values, literal.received.isSome = true
  | [] => by simp [receivedValues, literalsOfValues]
  | (key, .helper helper) :: rest => by
    rw [receivedValues, literalsOfValues, List.forall_mem_append, ← isSome_received_iff helper,
      ← isSome_receivedValues_iff rest]
    exact isSome_bind_map _ _ _
  | (key, .literal literal) :: rest => by
    rw [receivedValues, literalsOfValues, List.forall_mem_cons, ← isSome_receivedValues_iff rest]
    exact isSome_bind_map _ _ _

theorem isSome_receivedProps_iff : ∀ props : List (String × Helper),
    (receivedProps props).isSome = true ↔
      ∀ literal ∈ literalsOfProps props, literal.received.isSome = true
  | [] => by simp [receivedProps, literalsOfProps]
  | (key, helper) :: rest => by
    rw [receivedProps, literalsOfProps, List.forall_mem_append, ← isSome_received_iff helper,
      ← isSome_receivedProps_iff rest]
    exact isSome_bind_map _ _ _

theorem isSome_receivedParts_iff : ∀ parts : List ClassPart,
    (receivedParts parts).isSome = true ↔
      ∀ literal ∈ literalsOfParts parts, literal.received.isSome = true
  | [] => by simp [receivedParts, literalsOfParts]
  | .literal text :: rest => by
    rw [receivedParts, literalsOfParts, ← isSome_receivedParts_iff rest, Option.isSome_map]
  | .helper helper :: rest => by
    rw [receivedParts, literalsOfParts, List.forall_mem_append, ← isSome_received_iff helper,
      ← isSome_receivedParts_iff rest]
    exact isSome_bind_map _ _ _

end

def Number.IsRead (value : Number) : Prop :=
  ∃ other, Reader.ofWholeText Reader.number (Json.realText value) = .ok other

theorem Number.isRead_iff (value : Number) : value.IsRead ↔ value.received?.isSome = true := by
  have text : Json.realText value = (Json.real value).compact := by rw [Json.compact]
  rw [IsRead, text, Reader.ofWholeText_compact, received?, number_settled]
  cases Reader.number .settled (scanned (.real value)) with
  | ok other => simp [Except.toOption]
  | error refusal => simp [Except.toOption]

theorem Literal.isSome_received_iff (literal : Literal) : literal.received.isSome = true ↔
    ∀ value, literal = .number value → value.isFinite = true → value.IsRead := by
  cases literal with
  | number value =>
    have each : (∀ value', Literal.number value = .number value' → value'.isFinite = true →
        value'.IsRead) ↔ (value.isFinite = true → value.received?.isSome = true) := by
      rw [← value.isRead_iff]
      exact ⟨fun all => all value rfl, fun read _ same => by cases same; exact read⟩
    rw [each, received]
    by_cases finite : value.isFinite = true
    · rw [if_pos finite, Option.isSome_map]
      exact ⟨fun read _ => read, fun read => read finite⟩
    · rw [if_neg finite]
      exact ⟨fun _ isFinite => absurd isFinite finite, fun _ => rfl⟩
  | snippet s => simp [received]
  | boolean value => simp [received]
  | string text => simp [received]
  | undefined => simp [received]

/-! Mappings of declarations. -/

mutual

theorem hasDistinctKeys_of_isDeclarable : ∀ {helper : Helper}, helper.IsDeclarable →
    helper.HasDistinctKeys
  | .boolean _ (some values), declarable => by
    rw [Helper.IsDeclarable] at declarable
    rw [Helper.HasDistinctKeys]
    exact ⟨declarable.2.1, valuesDistinct_of_declarable declarable.2.2⟩
  | .enum _ values, declarable => by
    rw [Helper.IsDeclarable] at declarable
    rw [Helper.HasDistinctKeys]
    exact ⟨declarable.2.1, valuesDistinct_of_declarable declarable.2.2⟩
  | .nestedProps _ props, declarable => by
    rw [Helper.IsDeclarable] at declarable
    rw [Helper.HasDistinctKeys]
    exact ⟨declarable.1, propsDistinct_of_declarable declarable.2⟩
  | .className parts, declarable => by
    rw [Helper.IsDeclarable] at declarable
    rw [Helper.HasDistinctKeys]
    exact partsDistinct_of_declarable declarable
  | .boolean _ none, _ => by rw [Helper.HasDistinctKeys]; trivial
  | .string _, _ => by rw [Helper.HasDistinctKeys]; trivial
  | .swap _, _ => by rw [Helper.HasDistinctKeys]; trivial
  | .children _, _ => by rw [Helper.HasDistinctKeys]; trivial
  | .textContent _, _ => by rw [Helper.HasDistinctKeys]; trivial

theorem valuesDistinct_of_declarable : ∀ {values : List (String × Value)},
    ValuesDeclarable values → ValuesDistinct values
  | [], _ => by rw [ValuesDistinct]; trivial
  | (_, .helper helper) :: rest, declarable => by
    rw [ValuesDeclarable] at declarable
    rw [ValuesDistinct]
    exact ⟨hasDistinctKeys_of_isDeclarable declarable.1,
      valuesDistinct_of_declarable declarable.2⟩
  | (_, .literal _) :: rest, declarable => by
    rw [ValuesDeclarable] at declarable
    rw [ValuesDistinct]
    exact valuesDistinct_of_declarable declarable

theorem propsDistinct_of_declarable : ∀ {props : List (String × Helper)},
    PropsDeclarable props → PropsDistinct props
  | [], _ => by rw [PropsDistinct]; trivial
  | (_, helper) :: rest, declarable => by
    rw [PropsDeclarable] at declarable
    rw [PropsDistinct]
    exact ⟨hasDistinctKeys_of_isDeclarable declarable.1, propsDistinct_of_declarable declarable.2⟩

theorem partsDistinct_of_declarable : ∀ {parts : List ClassPart},
    PartsDeclarable parts → PartsDistinct parts
  | [], _ => by rw [PartsDistinct]; trivial
  | .literal _ :: rest, declarable => by
    rw [PartsDeclarable] at declarable
    rw [PartsDistinct]
    exact partsDistinct_of_declarable declarable
  | .helper helper :: rest, declarable => by
    rw [PartsDeclarable] at declarable
    rw [PartsDistinct]
    exact ⟨hasDistinctKeys_of_isDeclarable declarable.1, partsDistinct_of_declarable declarable.2⟩

end

namespace PropMapping

variable {props : PropMapping}

/-- A written mapping: without any space, or with line breaks as it is printed. -/
def IsDocument (props : PropMapping) (text : String) : Prop :=
  text = (toJson props).compact ∨ text = (toJson props).pretty 0 ++ "\n"

theorem toOption_read_document (distinct : props.HasDistinctKeys) {text : String}
    (written : props.IsDocument text) : (Reader.ofText PropMapping.read text).toOption =
      if (toJson props).depth < Mode.depthLimit then receivedProps props else none := by
  have reads := readsAs_props distinct.1 (readsAs_eachProp distinct.2 Mode.depthLimit)
  have scan : (Doc.ofText text.toList .endInString).1 = scanned (toJson props) := by
    rcases written with rfl | rfl
    · rw [Doc.ofText_compact]
    · rw [String.toList_append]
      exact Doc.ofText_pretty .endInString (toJson props) []
  rw [Reader.ofText, scan]
  exact reads (.stream Mode.depthLimit) (by decide : 0 < 128) (Nat.le_refl _)

/-- What is received is rendered as what was written, unless code was written from another
mapping. -/
theorem render_received_iff {received : PropMapping} (selector : Option String)
    (inside : receivedProps props = some received) :
    received.render selector = props.render selector ↔
      ((∃ code, props.render selector = .ok code) → received = props) := by
  rw [render_layerOf selector, render_layerOf selector]
  generalize layerOf selector = layer
  have same := sameEntries_receivedProps layer inside
  have errors := errorOf?_renderProps same
  rw [render, render]
  cases read : renderProps (some layer) props with
  | error e =>
    rw [read] at errors
    cases read' : renderProps (some layer) received with
    | error e' =>
      rw [read'] at errors
      obtain rfl := Option.some.inj errors
      refine ⟨fun _ ok => ?_, fun _ => rfl⟩
      obtain ⟨code, ok⟩ := ok
      cases ok
    | ok entries' =>
      rw [read'] at errors
      cases errors
  | ok entries =>
    rw [read] at errors
    cases read' : renderProps (some layer) received with
    | error e' =>
      rw [read'] at errors
      cases errors
    | ok entries' =>
      constructor
      · intro texts _
        have equal := congrArg String.toList (Except.ok.inj texts)
        rw [toList_renderObject, toList_renderObject] at equal
        have joined : Parser.joined ['\n'] ['\x7d'] (entries.map String.toList) ++ [] =
            Parser.joined ['\n'] ['\x7d'] (entries'.map String.toList) ++ [] := by
          simpa using equal.symm
        exact (same.inj (written_renderProps read) (written_renderProps read') joined).1.symm
      · intro unchanged
        obtain rfl := unchanged ⟨_, rfl⟩
        rw [read] at read'
        rw [Except.ok.inj read']

theorem received_iff_numbers : receivedProps props = some props ↔
    ∀ value, .number value ∈ props.literals → value.isFinite = true ∧ value.ReadsBack := by
  rw [received_props_iff]
  constructor
  · intro all value member
    exact (Literal.received_iff _).mp (all _ member) value rfl
  · intro all literal member
    rw [Literal.received_iff]
    rintro value rfl
    exact all value member

theorem isSome_received_iff_numbers : (receivedProps props).isSome = true ↔
    ∀ value, .number value ∈ props.literals → value.isFinite = true → value.IsRead := by
  rw [isSome_receivedProps_iff]
  constructor
  · intro all value member
    exact (Literal.isSome_received_iff _).mp (all _ member) value rfl
  · intro all literal member
    rw [Literal.isSome_received_iff]
    rintro value rfl
    exact all value member

/-- A mapping is read from each of its documents if they are not too deep and its numbers are of few
digits. -/
theorem read_document_of_few (distinct : props.HasDistinctKeys) {text : String}
    (written : props.IsDocument text) (shallow : (toJson props).depth ≤ 127)
    (few : ∀ value, .number value ∈ props.literals → value.HasFewDigits) :
    Reader.ofText PropMapping.read text = .ok props := by
  have reads := toOption_read_document distinct written
  have within : (toJson props).depth < Mode.depthLimit := Nat.lt_succ_of_le shallow
  have received : receivedProps props = some props :=
    received_iff_numbers.mpr fun value member =>
      ⟨(few value member).isFinite, (few value member).readsBack⟩
  rwa [if_pos within, received, toOption_eq_some] at reads

/-- A mapping that was read from code, written to a document and read from it, is rendered to the
same code or the same error exactly if the document is not too deep, each finite number is read as
some number, and, where there is code, each number is finite and is read as itself. -/
theorem render_read_iff [Diagnoses] {file code : String} {props : PropMapping}
    (accepted : Declaration.readProps file code = .ok props) (selector : Option String)
    {text : String} (written : props.IsDocument text) :
    (∃ received, Reader.ofText PropMapping.read text = .ok received ∧
        received.render selector = props.render selector) ↔
      (toJson props).depth ≤ 127 ∧
        (∀ value, .number value ∈ props.literals → value.isFinite = true → value.IsRead) ∧
        ((∃ code, props.render selector = .ok code) →
          ∀ value, .number value ∈ props.literals → value.isFinite = true ∧ value.ReadsBack) := by
  have declarable := Declaration.isDeclarable_of_readProps accepted
  have distinct : props.HasDistinctKeys :=
    ⟨declarable.1, propsDistinct_of_declarable declarable.2⟩
  have reads := toOption_read_document distinct written
  rw [← isSome_received_iff_numbers, ← received_iff_numbers]
  constructor
  · rintro ⟨received, read, rendered⟩
    rw [read] at reads
    by_cases shallow : (toJson props).depth < Mode.depthLimit
    · rw [if_pos shallow] at reads
      have inside : receivedProps props = some received := reads.symm
      refine ⟨Nat.le_of_lt_succ shallow, by rw [inside]; rfl, fun ok => ?_⟩
      rw [inside, (render_received_iff selector inside).mp rendered ok]
    · rw [if_neg shallow] at reads
      cases reads
  · rintro ⟨shallow, isSome, unchanged⟩
    obtain ⟨received, inside⟩ := Option.isSome_iff_exists.mp isSome
    have within : (toJson props).depth < Mode.depthLimit := Nat.lt_succ_of_le shallow
    rw [if_pos within, inside, toOption_eq_some] at reads
    refine ⟨received, reads, (render_received_iff selector inside).mpr fun ok => ?_⟩
    exact Option.some.inj (inside.symm.trans (unchanged ok))

/-- What the program prints for the helper calls of a file is a document of their mapping. -/
theorem isDocument_of_printProps [Diagnoses] {disk : Disk} {file : String} {output : CommandLine.Output}
    (printed : CommandLine.printProps disk file = .ok output) :
    ∃ code props, disk.readText file = .ok code ∧ Declaration.readProps file code = .ok props ∧
      IsDocument props output.text := by
  obtain ⟨code, text, later⟩ := exists_of_bind printed
  obtain ⟨props, accepted, result⟩ := exists_of_bind later
  obtain rfl := Except.ok.inj result
  exact ⟨code, props, ok_of_mapError text, ok_of_mapError accepted, .inr rfl⟩

def halfCode : String := "\x7b size: figma.enum(\"Size\", \x7b S: 0.5 \x7d) \x7d"

def halfProps : PropMapping :=
  [("size", .enum "Size" [("S", .literal (.number (.ofDecimal false 5 (-1))))])]

def oneNumber? : PropMapping → Option (String × String × String × Number)
  | [(key, .enum name [(option, .literal (.number value))])] => some (key, name, option, value)
  | _ => none

theorem eq_of_oneNumber? {props : PropMapping} {key name option : String} {value : Number}
    (parts : oneNumber? props = some (key, name, option, value)) :
    props = [(key, .enum name [(option, .literal (.number value))])] := by
  unfold oneNumber? at parts
  split at parts
  case h_1 =>
    cases parts
    rfl
  case h_2 => cases parts

theorem readProps_halfCode : Declaration.readProps "inline.tsx" halfCode = .ok halfProps := by
  have parts : (Declaration.readProps "inline.tsx" halfCode).toOption.bind oneNumber? =
      some ("size", "Size", "S", .ofDecimal false 5 (-1)) := by
    decide +kernel
  obtain ⟨props, read, same⟩ := Option.bind_eq_some_iff.mp parts
  rw [toOption_eq_some.mp read, eq_of_oneNumber? same, halfProps]

theorem render_read_half : Declaration.readProps "inline.tsx" halfCode = .ok halfProps ∧
    halfProps.IsDocument ((toJson halfProps).pretty 0 ++ "\n") ∧
    ∃ received, Reader.ofText PropMapping.read ((toJson halfProps).pretty 0 ++ "\n") =
      .ok received ∧ received.render (some "layer") = halfProps.render (some "layer") := by
  have number : ∀ value, .number value ∈ halfProps.literals → value = .ofDecimal false 5 (-1) := by
    simp [halfProps, literals, literalsOfProps, Helper.literals, literalsOfValues]
  have readsBack : (Number.ofDecimal false 5 (-1)).isFinite = true ∧
      (Number.ofDecimal false 5 (-1)).ReadsBack := by
    rw [Number.readsBack_iff]
    decide +kernel
  refine ⟨readProps_halfCode, .inr rfl,
    (render_read_iff readProps_halfCode (some "layer") (.inr rfl)).mpr ⟨by decide, ?_, ?_⟩⟩
  · intro value member _
    rw [number value member]
    exact ⟨_, readsBack.2⟩
  · intro _ value member
    rw [number value member]
    exact readsBack

theorem render_read_overflow :
    ¬ ∀ (file code : String) (props : PropMapping) (selector : Option String),
      Declaration.readProps file code = .ok props →
      ∃ received, Reader.ofText PropMapping.read (toJson props).compact = .ok received ∧
        received.render selector = props.render selector := by
  intro every
  have differs : (Declaration.readProps "inline.tsx"
      "\x7b k: figma.enum(\"x\", \x7b a: 1e999 \x7d) \x7d").toOption.map (fun props =>
        (Reader.ofText PropMapping.read (toJson props).compact).toOption.map fun received =>
          ((received.render none).toOption == (props.render none).toOption)) =
      some (some false) := by
    decide +kernel
  cases accepted : Declaration.readProps "inline.tsx"
      "\x7b k: figma.enum(\"x\", \x7b a: 1e999 \x7d) \x7d" with
  | error problem =>
    rw [accepted] at differs
    cases differs
  | ok props =>
    obtain ⟨received, read, same⟩ := every _ _ props none accepted
    rw [accepted] at differs
    simp [Except.toOption, read, same] at differs

end PropMapping

end DesignLink
