import DesignLink.Mapping.Document
import DesignLink.Proofs.Mapping.Declarable
import DesignLink.Proofs.Wire.Exact
import DesignLink.Proofs.Wire.Records

/-!
Mappings that went through a document: what is read of a written mapping.
-/

namespace DesignLink

open Wire

/-- The literal that is read for a written one. Numbers that are not finite are read as
`undefined`. -/
def Literal.received : Literal → Option Literal
  | .number value => if value.isFinite then value.received?.map .number else some .undefined
  | .snippet s => some (.snippet s)
  | .boolean value => some (.boolean value)
  | .string text => some (.string text)
  | .undefined => some .undefined

mutual

def Helper.received : Helper → Option Helper
  | .boolean property none => some (.boolean property none)
  | .boolean property (some values) =>
    (receivedValues values).map fun values => .boolean property (some values)
  | .enum property values => (receivedValues values).map (.enum property)
  | .string property => some (.string property)
  | .swap property => some (.swap property)
  | .children layers => some (.children layers)
  | .nestedProps layer props => (receivedProps props).map (.nestedProps layer)
  | .className parts => (receivedParts parts).map .className
  | .textContent layer => some (.textContent layer)

def receivedValues : List (String × Value) → Option (List (String × Value))
  | [] => some []
  | (key, .helper helper) :: rest =>
    helper.received.bind fun helper => (receivedValues rest).map (List.cons (key, .helper helper))
  | (key, .literal literal) :: rest =>
    literal.received.bind fun literal =>
      (receivedValues rest).map (List.cons (key, .literal literal))

def receivedProps : List (String × Helper) → Option (List (String × Helper))
  | [] => some []
  | (key, helper) :: rest =>
    helper.received.bind fun helper => (receivedProps rest).map (List.cons (key, helper))

def receivedParts : List ClassPart → Option (List ClassPart)
  | [] => some []
  | .literal text :: rest => (receivedParts rest).map (List.cons (.literal text))
  | .helper helper :: rest =>
    helper.received.bind fun helper => (receivedParts rest).map (List.cons (.helper helper))

end

def Value.received : Value → Option Value
  | .helper inner => inner.received.map .helper
  | .literal inner => inner.received.map .literal

namespace ClassPart

def received : ClassPart → Option ClassPart
  | .literal text => some (.literal text)
  | .helper inner => inner.received.map .helper

def toJson : ClassPart → Json
  | .literal text => .string text
  | .helper inner => inner.toJson

end ClassPart

/-! Lists of parts are read part by part. -/

theorem valueMembers_eq_map : ∀ values : List (String × Value),
    valueMembers values = values.map fun entry => (entry.1, entry.2.toJson)
  | [] => rfl
  | (_, .helper _) :: rest => by rw [valueMembers, valueMembers_eq_map rest]; rfl
  | (_, .literal _) :: rest => by rw [valueMembers, valueMembers_eq_map rest]; rfl

theorem propMembers_eq_map : ∀ props : List (String × Helper),
    propMembers props = props.map fun entry => (entry.1, entry.2.toJson)
  | [] => rfl
  | (_, _) :: rest => by rw [propMembers, propMembers_eq_map rest]; rfl

theorem partItems_eq_map : ∀ parts : List ClassPart, partItems parts = parts.map ClassPart.toJson
  | [] => rfl
  | .literal _ :: rest => by rw [partItems, partItems_eq_map rest]; rfl
  | .helper _ :: rest => by rw [partItems, partItems_eq_map rest]; rfl

theorem receivedValues_eq : ∀ values : List (String × Value), receivedValues values =
    collected (fun entry : String × Value => entry.2.received.map (Prod.mk entry.1)) values
  | [] => rfl
  | (key, .helper helper) :: rest => by
    rw [receivedValues, collected, ← receivedValues_eq rest, Value.received]
    cases helper.received <;> rfl
  | (key, .literal literal) :: rest => by
    rw [receivedValues, collected, ← receivedValues_eq rest, Value.received]
    cases literal.received <;> rfl

theorem receivedProps_eq : ∀ props : List (String × Helper), receivedProps props =
    collected (fun entry : String × Helper => entry.2.received.map (Prod.mk entry.1)) props
  | [] => rfl
  | (key, helper) :: rest => by
    rw [receivedProps, collected, ← receivedProps_eq rest]
    cases helper.received <;> rfl

theorem receivedParts_eq : ∀ parts : List ClassPart,
    receivedParts parts = collected ClassPart.received parts
  | [] => rfl
  | .literal text :: rest => by
    rw [receivedParts, collected, ← receivedParts_eq rest]
    rfl
  | .helper helper :: rest => by
    rw [receivedParts, collected, ← receivedParts_eq rest, ClassPart.received]
    cases helper.received <;> rfl

/-! Literals. -/

theorem isSound_literal {literal : Literal} (received : literal.received.isSome = true) :
    isSound literal.toJson = true := by
  cases literal with
  | snippet s => rfl
  | boolean value => rfl
  | number value =>
    cases value with
    | finite negative m =>
      rw [Literal.received, Number.received?, Literal.toJson] at *
      rw [scanned] at received
      rw [isSound]
      cases read : Numeral.ofText negative (magnitudeText m).toList with
      | ok numeral => rfl
      | error fault =>
        rw [read] at received
        cases received
    | infinite negative => rfl
    | undefined => rfl
  | string text => rfl
  | undefined => rfl

theorem snippet_toOption (s : Snippet) :
    (Snippet.read .settled (scanned s.toJson)).toOption = some s := by
  obtain ⟨kind, text⟩ := s
  have found : Dictionary.get? (SnippetKind.all.map fun kind => (kind.tag,
      fun mode doc => (Reader.text mode doc).map fun text => (⟨kind, text⟩ : Snippet))) kind.tag =
      some fun mode doc => (Reader.text mode doc).map fun text => ⟨kind, text⟩ := by
    cases kind <;> rfl
  have different : (⟨"type", "value"⟩ : Tagged.Keys).content ≠ "type" := by decide
  exact adjacent_toOption "Snippet" different found .settled (.string (.ok text))

theorem readsAs_literal (bound : Nat) (literal : Literal) :
    ReadsAs bound Literal.read literal.toJson literal.received := by
  refine readsAs_firstOf "Literal" ?_ isSound_literal
  intro _
  cases literal with
  | snippet s =>
    rw [List.findSome?_cons, toOption_map, Literal.toJson, snippet_toOption]
    rfl
  | boolean value => rfl
  | number value =>
    cases value with
    | finite negative m =>
      rw [Literal.toJson, Literal.received, Number.received?, scanned]
      cases Numeral.ofText negative (magnitudeText m).toList with
      | error fault => rfl
      | ok numeral => cases numeral <;> rfl
    | infinite negative => rfl
    | undefined => rfl
  | string text => rfl
  | undefined => rfl

theorem isSome_of_bind {α β γ : Type} {first : Option α} {others : Option β} {f : α → β → γ}
    (received : (first.bind fun a => others.map (f a)).isSome = true) :
    first.isSome = true ∧ others.isSome = true := by
  cases first with
  | none => cases received
  | some a =>
    rw [Option.bind_some, Option.isSome_map] at received
    exact ⟨rfl, received⟩

/-! Helpers and literals are not mistaken for each other. -/

theorem exists_taggedArguments (helper : Helper) :
    ∃ kind arguments, helper.toJson = Helper.toJson.taggedArguments kind arguments := by
  cases helper with
  | boolean property values =>
    cases values with
    | none => exact ⟨.boolean, _, rfl⟩
    | some values => exact ⟨.boolean, _, rfl⟩
  | enum property values => exact ⟨.enum, _, rfl⟩
  | string property => exact ⟨.string, _, rfl⟩
  | swap property => exact ⟨.swap, _, rfl⟩
  | children layers => exact ⟨.children, _, rfl⟩
  | nestedProps layer props => exact ⟨.nestedProps, _, rfl⟩
  | className parts => exact ⟨.className, _, rfl⟩
  | textContent layer => exact ⟨.textContent, _, rfl⟩

theorem literal_of_helper (helper : Helper) :
    (Literal.read .settled (scanned helper.toJson)).toOption = none := by
  obtain ⟨kind, arguments, shape⟩ := exists_taggedArguments helper
  have noSnippet : (Snippet.read .settled
      (scanned (Helper.toJson.taggedArguments kind arguments))).toOption = none :=
    @adjacent_none Snippet "Snippet" ⟨"type", "value"⟩ _ .settled
      [("kind", .string (.ok kind.tag)), ("args", scanned (.object arguments))] (by simp)
  rw [shape]
  unfold Literal.read Reader.firstOf
  rw [toOption_bind, List.findSome?_cons, toOption_map, noSnippet]
  rfl

theorem helper_of_literal (depth : Nat) (literal : Literal) :
    (Helper.readNested depth .settled (scanned literal.toJson)).toOption = none := by
  cases depth with
  | zero => rfl
  | succ depth =>
    cases literal with
    | snippet s =>
      exact @adjacent_none Helper "Intrinsic" ⟨"kind", "args"⟩ _ .settled
        [("type", .string (.ok s.kind.tag)), ("value", .string (.ok s.text))] (by simp)
    | boolean value => rfl
    | number value =>
      cases value with
      | finite negative m =>
        rw [Literal.toJson, scanned]
        cases Numeral.ofText negative (magnitudeText m).toList with
        | error fault => rfl
        | ok numeral => cases numeral <;> rfl
      | infinite negative => rfl
      | undefined => rfl
    | string text => rfl
    | undefined => rfl

theorem soundItems_strings : ∀ texts : List String, soundItems (texts.map .string) = true
  | [] => rfl
  | _ :: rest => by
    rw [List.map_cons, soundItems, soundItems_strings rest]
    rfl

mutual

theorem isSound_helper : ∀ {helper : Helper},
    helper.received.isSome = true → isSound helper.toJson = true
  | .boolean _ none, _ => rfl
  | .boolean _ (some values), received => by
    rw [Helper.received, Option.isSome_map] at received
    have inside := soundMembers_values received
    simp [Helper.toJson, Helper.toJson.taggedArguments, isSound, soundMembers, inside]
  | .enum _ values, received => by
    rw [Helper.received, Option.isSome_map] at received
    have inside := soundMembers_values received
    simp [Helper.toJson, Helper.toJson.taggedArguments, isSound, soundMembers, inside]
  | .string _, _ => rfl
  | .swap _, _ => rfl
  | .children layers, _ => by
    have inside := soundItems_strings layers
    simp [Helper.toJson, Helper.toJson.taggedArguments, isSound, soundMembers, inside]
  | .nestedProps _ props, received => by
    rw [Helper.received, Option.isSome_map] at received
    have inside := soundMembers_props received
    simp [Helper.toJson, Helper.toJson.taggedArguments, isSound, soundMembers, inside]
  | .className parts, received => by
    rw [Helper.received, Option.isSome_map] at received
    have inside := soundItems_parts received
    simp [Helper.toJson, Helper.toJson.taggedArguments, isSound, soundMembers, inside]
  | .textContent _, _ => rfl

theorem soundMembers_values : ∀ {values : List (String × Value)},
    (receivedValues values).isSome = true → soundMembers (valueMembers values) = true
  | [], _ => rfl
  | (key, .helper helper) :: rest, received => by
    rw [receivedValues] at received
    obtain ⟨first, others⟩ := isSome_of_bind received
    rw [valueMembers, soundMembers, isSound_helper first, soundMembers_values others]
    rfl
  | (key, .literal literal) :: rest, received => by
    rw [receivedValues] at received
    obtain ⟨first, others⟩ := isSome_of_bind received
    rw [valueMembers, soundMembers, isSound_literal first, soundMembers_values others]
    rfl

theorem soundMembers_props : ∀ {props : List (String × Helper)},
    (receivedProps props).isSome = true → soundMembers (propMembers props) = true
  | [], _ => rfl
  | (key, helper) :: rest, received => by
    rw [receivedProps] at received
    obtain ⟨first, others⟩ := isSome_of_bind received
    rw [propMembers, soundMembers, isSound_helper first, soundMembers_props others]
    rfl

theorem soundItems_parts : ∀ {parts : List ClassPart},
    (receivedParts parts).isSome = true → soundItems (partItems parts) = true
  | [], _ => rfl
  | .literal text :: rest, received => by
    rw [receivedParts, Option.isSome_map] at received
    rw [partItems, soundItems, soundItems_parts received]
    rfl
  | .helper helper :: rest, received => by
    rw [receivedParts] at received
    obtain ⟨first, others⟩ := isSome_of_bind received
    rw [partItems, soundItems, isSound_helper first, soundItems_parts others]
    rfl

end

/-! Keys. -/

mutual

/-- The keys of every dictionary inside are pairwise different. -/
def Helper.HasDistinctKeys : Helper → Prop
  | .boolean _ (some values) => DistinctKeys values ∧ ValuesDistinct values
  | .enum _ values => DistinctKeys values ∧ ValuesDistinct values
  | .nestedProps _ props => DistinctKeys props ∧ PropsDistinct props
  | .className parts => PartsDistinct parts
  | .boolean _ none | .string _ | .swap _ | .children _ | .textContent _ => True

def ValuesDistinct : List (String × Value) → Prop
  | [] => True
  | (_, .helper helper) :: rest => helper.HasDistinctKeys ∧ ValuesDistinct rest
  | (_, .literal _) :: rest => ValuesDistinct rest

def PropsDistinct : List (String × Helper) → Prop
  | [] => True
  | (_, helper) :: rest => helper.HasDistinctKeys ∧ PropsDistinct rest

def PartsDistinct : List ClassPart → Prop
  | [] => True
  | .literal _ :: rest => PartsDistinct rest
  | .helper helper :: rest => helper.HasDistinctKeys ∧ PartsDistinct rest

end

def PropMapping.HasDistinctKeys (props : PropMapping) : Prop :=
  DistinctKeys props ∧ PropsDistinct props

/-! Helpers. -/

def Value.readAround (helper : Reader Helper) : Reader Value :=
  Reader.firstOf "ValueMappingKind" [
    fun mode doc => (helper mode doc).map .helper,
    fun mode doc => (Literal.read mode doc).map .literal]

def ClassPart.readAround (helper : Reader Helper) : Reader ClassPart :=
  Reader.firstOf "ClassNamePart" [
    fun mode doc => (Reader.text mode doc).map .literal,
    fun mode doc => (helper mode doc).map .helper]

section Inside

variable {n : Nat}

theorem toOption_settled {α : Type} {read : Reader α} {json : Json} {result : Option α}
    (reads : ReadsAs n read json result) (shallow : json.depth ≤ n) :
    (read .settled (scanned json)).toOption = result :=
  (reads .settled trivial shallow).trans (if_pos trivial)

theorem readsAs_value_helper {helper : Helper}
    (reads : ReadsAs n (Helper.readNested n) helper.toJson helper.received) :
    ReadsAs n (Value.readAround (Helper.readNested n)) helper.toJson
      (Value.helper helper).received := by
  refine readsAs_firstOf "ValueMappingKind" ?_ fun received => ?_
  · intro shallow
    rw [List.findSome?_cons, toOption_map, toOption_settled reads shallow, Value.received]
    cases helper.received with
    | some value => rfl
    | none =>
      rw [Option.map_none, List.findSome?_cons, toOption_map, literal_of_helper]
      rfl
  · rw [Value.received, Option.isSome_map] at received
    exact isSound_helper received

theorem readsAs_value_literal (literal : Literal) :
    ReadsAs n (Value.readAround (Helper.readNested n)) literal.toJson
      (Value.literal literal).received := by
  refine readsAs_firstOf "ValueMappingKind" ?_ fun received => ?_
  · intro shallow
    have reads := toOption_settled (readsAs_literal n literal) shallow
    rw [List.findSome?_cons, toOption_map, helper_of_literal, Option.map_none,
      List.findSome?_cons, toOption_map, reads, Value.received]
    cases literal.received <;> rfl
  · rw [Value.received, Option.isSome_map] at received
    exact isSound_literal received

theorem readsAs_part_helper {helper : Helper}
    (reads : ReadsAs n (Helper.readNested n) helper.toJson helper.received) :
    ReadsAs n (ClassPart.readAround (Helper.readNested n)) helper.toJson
      (ClassPart.helper helper).received := by
  refine readsAs_firstOf "ClassNamePart" ?_ fun received => ?_
  · intro shallow
    obtain ⟨kind, arguments, shape⟩ := exists_taggedArguments helper
    have noText : (Reader.text .settled (scanned helper.toJson)).toOption = none := by
      rw [shape]
      rfl
    rw [List.findSome?_cons, toOption_map, noText, Option.map_none, List.findSome?_cons,
      toOption_map, toOption_settled reads shallow, ClassPart.received]
    cases helper.received <;> rfl
  · rw [ClassPart.received, Option.isSome_map] at received
    exact isSound_helper received

theorem readsAs_part_literal (text : String) :
    ReadsAs n (ClassPart.readAround (Helper.readNested n)) (.string text)
      (ClassPart.literal text).received :=
  readsAs_firstOf "ClassNamePart" (fun _ => rfl) fun _ => rfl

theorem readsAs_values {values : List (String × Value)} (distinct : DistinctKeys values)
    (each : ∀ entry ∈ values,
      ReadsAs n (Value.readAround (Helper.readNested n)) entry.2.toJson entry.2.received) :
    ReadsAs n (Reader.dictionary (Value.readAround (Helper.readNested n)))
      (.object (valueMembers values)) (receivedValues values) := by
  rw [valueMembers_eq_map, receivedValues_eq]
  exact (readsAs_dictionary distinct each).mono (Nat.le_succ n)

theorem readsAs_props {props : List (String × Helper)} (distinct : DistinctKeys props)
    (each : ∀ entry ∈ props,
      ReadsAs n (Helper.readNested n) entry.2.toJson entry.2.received) :
    ReadsAs n (Reader.dictionary (Helper.readNested n)) (.object (propMembers props))
      (receivedProps props) := by
  rw [propMembers_eq_map, receivedProps_eq]
  exact (readsAs_dictionary distinct each).mono (Nat.le_succ n)

theorem readsAs_parts {parts : List ClassPart}
    (each : ∀ part ∈ parts,
      ReadsAs n (ClassPart.readAround (Helper.readNested n)) part.toJson part.received) :
    ReadsAs n (Reader.list (ClassPart.readAround (Helper.readNested n)))
      (.list (partItems parts)) (receivedParts parts) := by
  rw [partItems_eq_map, receivedParts_eq]
  exact (readsAs_list parts each).mono (Nat.le_succ n)

theorem readsAs_layers (layers : List String) :
    ReadsAs n (Reader.list Reader.text) (.list (layers.map .string)) (some layers) := by
  have all : ∀ layers : List String, collected some layers = some layers := by
    intro layers
    induction layers with
    | nil => rfl
    | cons layer layers ih => rw [collected, ih]; rfl
  rw [← all layers]
  exact (readsAs_list layers fun layer _ => readsAs_text n layer).mono (Nat.le_succ n)

end Inside

theorem readsAs_tagged (kind : HelperKind) {arguments : List (String × Json)}
    {result : Option Helper} (reads : ∀ n, ReadsAs (n + 1)
      (Helper.argumentReader (Helper.readNested n) kind) (.object arguments) result) :
    ∀ n, ReadsAs n (Helper.readNested n) (Helper.toJson.taggedArguments kind arguments) result
  | 0 => readsAs_zero _ _ _
  | n + 1 => by
    have found : Dictionary.get? (HelperKind.all.map fun kind =>
        (kind.tag, Helper.argumentReader (Helper.readNested n) kind)) kind.tag =
        some (Helper.argumentReader (Helper.readNested n) kind) := by
      cases kind <;> rfl
    have different : (⟨"kind", "args"⟩ : Tagged.Keys).content ≠ "kind" := by decide
    exact readsAs_adjacent "Intrinsic" different found ((reads n).mono (Nat.le_succ n))

mutual

/-- A helper is read as it is received, however deep the reader goes: documents that are deeper
are refused before. -/
theorem readsAs_helper : ∀ {helper : Helper}, helper.HasDistinctKeys →
    ∀ n, ReadsAs n (Helper.readNested n) helper.toJson helper.received
  | .boolean property none, _ =>
    readsAs_tagged .boolean fun n =>
      readsAs_absent "BooleanArgs" "figmaPropName" "valueMapping" (readsAs_text n property) _ none _
  | .boolean property (some values), ⟨distinct, inside⟩ => by
    have result : Helper.received (.boolean property (some values)) =
        ((receivedValues values).map some).map (Helper.boolean property) := by
      rw [Helper.received, Option.map_map]
      rfl
    rw [result]
    exact readsAs_tagged .boolean fun n =>
      readsAs_both "BooleanArgs" (by decide) (readsAs_text n property)
        (readsAs_optional Doc.noConfusion
          (readsAs_values distinct (readsAs_eachValue inside n))) false _ _
  | .enum property values, ⟨distinct, inside⟩ =>
    readsAs_tagged .enum fun n =>
      readsAs_both "EnumArgs" (by decide) (readsAs_text n property)
        (readsAs_values distinct (readsAs_eachValue inside n)) true _ _
  | .string property, _ =>
    readsAs_tagged .string fun n =>
      readsAs_single "PropNameArgs" "figmaPropName" (readsAs_text n property) Helper.string
  | .swap property, _ =>
    readsAs_tagged .swap fun n =>
      readsAs_single "PropNameArgs" "figmaPropName" (readsAs_text n property) Helper.swap
  | .children layers, _ =>
    readsAs_tagged .children fun n =>
      readsAs_single "ChildrenArgs" "layers" (readsAs_layers layers) Helper.children
  | .nestedProps layer props, ⟨distinct, inside⟩ =>
    readsAs_tagged .nestedProps fun n =>
      readsAs_both "NestedPropsArgs" (by decide) (readsAs_text n layer)
        (readsAs_props distinct (readsAs_eachProp inside n)) true _ _
  | .className parts, inside =>
    readsAs_tagged .className fun n =>
      readsAs_single "ClassNameArgs" "className"
        (readsAs_parts (readsAs_eachPart inside n)) Helper.className
  | .textContent layer, _ =>
    readsAs_tagged .textContent fun n =>
      readsAs_single "TextContentArgs" "layer" (readsAs_text n layer) Helper.textContent

theorem readsAs_eachValue : ∀ {values : List (String × Value)}, ValuesDistinct values →
    ∀ n, ∀ entry ∈ values,
      ReadsAs n (Value.readAround (Helper.readNested n)) entry.2.toJson entry.2.received
  | [], _, _, _, member => nomatch member
  | (_, .helper _) :: rest, ⟨first, others⟩, n, entry, member => by
    cases member with
    | head => exact readsAs_value_helper (readsAs_helper first n)
    | tail _ later => exact readsAs_eachValue others n entry later
  | (_, .literal literal) :: rest, others, n, entry, member => by
    cases member with
    | head => exact readsAs_value_literal literal
    | tail _ later => exact @readsAs_eachValue rest others n entry later

theorem readsAs_eachProp : ∀ {props : List (String × Helper)}, PropsDistinct props →
    ∀ n, ∀ entry ∈ props, ReadsAs n (Helper.readNested n) entry.2.toJson entry.2.received
  | [], _, _, _, member => nomatch member
  | (_, _) :: rest, ⟨first, others⟩, n, entry, member => by
    cases member with
    | head => exact readsAs_helper first n
    | tail _ later => exact readsAs_eachProp others n entry later

theorem readsAs_eachPart : ∀ {parts : List ClassPart}, PartsDistinct parts →
    ∀ n, ∀ part ∈ parts,
      ReadsAs n (ClassPart.readAround (Helper.readNested n)) part.toJson part.received
  | [], _, _, _, member => nomatch member
  | .literal text :: rest, others, n, part, member => by
    cases member with
    | head => exact readsAs_part_literal text
    | tail _ later => exact @readsAs_eachPart rest others n part later
  | .helper _ :: rest, ⟨first, others⟩, n, part, member => by
    cases member with
    | head => exact readsAs_part_helper (readsAs_helper first n)
    | tail _ later => exact readsAs_eachPart others n part later

end

end DesignLink
