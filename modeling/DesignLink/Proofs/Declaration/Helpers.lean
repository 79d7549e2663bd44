import DesignLink.Proofs.Declaration.Declared
import DesignLink.Proofs.Declaration.Literals
import DesignLink.Proofs.Script.Calls

/-!
The written forms of helpers read back: a helper that a declaration can give is read as itself if all
its numbers are finite, and as nothing otherwise. Main statement: `Helper.reads`.
-/

namespace DesignLink

def HelperKind.word : HelperKind → String
  | boolean => "boolean"
  | enum => "enum"
  | string => "string"
  | swap => "instance"
  | children => "children"
  | nestedProps => "nestedProps"
  | className => "className"
  | textContent => "textContent"

namespace Declaration

open Script

/-! What is read for the parts of a declaration. -/

/-- What is read for the written form of a helper: the helper, or nothing if a number in it is not
finite. -/
def ReadsHelper (helper : Helper) (source : Source) (e : Expr) : Prop :=
  e.isCall = true ∧
    (helperOf source e).toOption = if AllFinite helper.literals then some helper else none

def ReadsValue (value : Value) (source : Source) (e : Expr) : Prop :=
  (valueOf source e).toOption = if AllFinite value.literals then some value else none

theorem ReadsHelper.value {helper : Helper} {source : Source} {e : Expr}
    (reads : ReadsHelper helper source e) : ReadsValue (.helper helper) source e := by
  obtain ⟨call, value⟩ := reads
  rw [ReadsValue, valueOf, if_pos call, toOption_map, value, Value.literals]
  split <;> rfl

theorem ReadsLiteral.value {literal : Literal} {source : Source} {e : Expr}
    (reads : ReadsLiteral literal source e) : ReadsValue (.literal literal) source e := by
  obtain ⟨noCall, value⟩ := reads
  rw [ReadsValue, valueOf, noCall, if_neg Bool.false_ne_true, toOption_map, value, Value.literals,
    AllFinite, List.all_cons, List.all_nil, Bool.and_true]
  split <;> rfl

/-- What is read for an entry: a field under the key, with the value. -/
def ReadsEntry (source : Source) (member : Member) (entry : String × Value) : Prop :=
  ∃ span key e, member = .field span key false e ∧ IsKey entry.1 key ∧
    ReadsValue entry.2 source e

theorem keyText_of_isKey {text : String} {key : Key} (isKey : IsKey text key) (source : Source) :
    keyText source key = .ok text := by
  cases isKey <;> rfl

theorem contains_eq_false {α : Type} {before : List (String × α)} {key : String} {value : α}
    {rest : List (String × α)} (distinct : DistinctKeys (before ++ (key, value) :: rest)) :
    Dictionary.contains before key = false := by
  rw [Dictionary.contains, List.any_eq_false]
  intro entry member same
  rw [decide_eq_true_eq] at same
  rw [DistinctKeys, Dictionary.keys, List.map_append, List.map_cons, List.nodup_append] at distinct
  exact distinct.2.2 entry.1 (List.mem_map_of_mem member) key (by simp) same

theorem valuesOf_of_reads {source : Source} {members : List Member}
    {values : List (String × Value)} (reads : List.Forall₂ (ReadsEntry source) members values) :
    ∀ before : ValueMapping, DistinctKeys (before ++ values) →
      (valuesOf source before members).toOption =
        if AllFinite (literalsOfValues values) then some (before ++ values) else none := by
  induction reads with
  | nil =>
    intro before _
    rw [valuesOf, literalsOfValues, List.append_nil]
    rfl
  | @cons member entry members values first rest ih =>
    intro before distinct
    obtain ⟨span, key, e, rfl, isKey, value⟩ := first
    obtain ⟨name, given⟩ := entry
    have absent : Dictionary.contains before name = false := contains_eq_false distinct
    have later := ih (before ++ [(name, given)]) (by
      rw [List.append_assoc]
      exact distinct)
    have whole : valuesOf source before (.field span key false e :: members) =
        valueOf source e >>= fun value =>
          valuesOf source (before ++ [(name, value)]) members := by
      rw [valuesOf_field, keyText_of_isKey isKey]
      simp only [bind, Except.bind, absent, Bool.false_eq_true, if_false]
    rw [ReadsValue] at value
    rw [whole, toOption_bind, value, literalsOfValues_cons, allFinite_append]
    cases AllFinite given.literals with
    | false => rfl
    | true =>
      rw [if_pos rfl, Option.bind_some, later, List.append_assoc, Bool.true_and]
      rfl

theorem helpersOnly_propValues (source : Source) :
    ∀ (props : List (String × Helper)) (members : List Member), members.length = props.length →
      helpersOnly source (propValues props) members = .ok props
  | [], _, _ => by simp [propValues, helpersOnly]
  | (key, helper) :: props, member :: members, length => by
    have later := helpersOnly_propValues source props members (Nat.succ.inj length)
    rw [propValues] at later
    rw [propValues, List.map_cons, helpersOnly, later]
    rfl

theorem checkBoolean_of_keys (source : Source) (span : Span) {values : ValueMapping}
    (keys : ∀ key ∈ Dictionary.keys values, key = "true" ∨ key = "false") :
    checkBoolean source span values = .ok values := by
  have none_ : values.find? (fun entry => entry.1 ≠ "true" ∧ entry.1 ≠ "false") = none := by
    rw [List.find?_eq_none]
    intro entry member
    rcases keys entry.1 (List.mem_map_of_mem member) with same | same <;> simp [same]
  rw [checkBoolean, none_]

theorem checkEnum_of_ne_nil (source : Source) (span : Span) {values : ValueMapping}
    (nonempty : values ≠ []) : checkEnum source span values = .ok values := by
  have some_ : values.isEmpty = false := List.isEmpty_eq_false_iff.mpr nonempty
  rw [checkEnum, some_, if_neg Bool.false_ne_true]

/-- What is read for a quoted text. -/
def ReadsString (text : String) (_ : Source) (e : Expr) : Prop := ∃ span, e = .string span text

theorem layerItems_of_strings {source : Source} {array : Span} {items : List Item}
    {layers : List String}
    (reads : List.Forall₂ (fun item layer => ∃ e, item = .value e ∧ ReadsString layer source e)
      items layers) (plain : ∀ layer ∈ layers, layer.toList.contains '*' = false) :
    layerItems source array items = .ok layers := by
  induction reads with
  | nil => rw [layerItems]
  | @cons item layer items layers first rest ih =>
    obtain ⟨_, rfl, span, rfl⟩ := first
    have noWildcard := plain layer (by simp)
    have later := ih fun other member => plain other (by simp [member])
    rw [layerItems, noWildcard, later]
    rfl

def ReadsClassPart : ClassPart → Source → Expr → Prop
  | .literal text => ReadsString text
  | .helper helper => ReadsHelper helper

theorem partsOf_of_reads {source : Source} {items : List Item} {parts : List ClassPart}
    (reads : List.Forall₂ (fun item part => ∃ e, item = .value e ∧ ReadsClassPart part source e)
      items parts) :
    (partsOf source items).toOption =
      if AllFinite (literalsOfParts parts) then some parts else none := by
  induction reads with
  | nil =>
    rw [partsOf, literalsOfParts]
    rfl
  | @cons item part items parts first rest ih =>
    obtain ⟨e, rfl, read⟩ := first
    cases part with
    | literal text =>
      obtain ⟨span, rfl⟩ := read
      rw [partsOf, literalsOfParts, toOption_bind, ih]
      split <;> rfl
    | helper helper =>
      obtain ⟨call, value⟩ := read
      have noString : ∀ span text, e ≠ .string span text := by
        rintro span text rfl
        cases call
      rw [partsOf_value source items noString, if_pos call, toOption_bind, toOption_map, value,
        literalsOfParts, allFinite_append]
      cases AllFinite helper.literals with
      | false => rfl
      | true =>
        rw [if_pos rfl, Option.map_some, Option.bind_some, toOption_bind, ih, Bool.true_and]
        split <;> rfl

/-! The layout of the written forms. -/

theorem toList_printEntry (key value : String) :
    (printEntry key value).toList = (declaredKey key).toList ++ ':' :: ' ' :: value.toList := by
  simp [printEntry]

theorem toList_printArray (items : List String) :
    (printArray items).toList = '[' :: Parser.joined [' '] [']'] (items.map String.toList) := by
  rw [← Parser.intercalate_append]
  simp [printArray, String.toList_intercalate]

theorem toList_printObject {entries : List String} (nonempty : entries ≠ []) :
    (printObject entries).toList =
      '\x7b' :: ([' '] ++ Parser.joined [' '] [' ', '\x7d'] (entries.map String.toList)) := by
  have some_ : entries.isEmpty = false := List.isEmpty_eq_false_iff.mpr nonempty
  rw [printObject, some_, if_neg Bool.false_ne_true, ← Parser.intercalate_append]
  simp [String.toList_intercalate]

theorem toList_callName (kind : HelperKind) :
    kind.callName.toList = pathText "figma" [kind.word] := by cases kind <;> rfl

theorem toList_printCall (kind : HelperKind) (arguments : List String) :
    (printCall kind arguments).toList =
      callText "figma" [kind.word] (arguments.map String.toList) := by
  rw [callText, argumentsText, ← Parser.intercalate_append, ← toList_callName]
  simp [printCall, String.toList_intercalate]

theorem ofCall?_callName (kind : HelperKind) (rest : List Char) :
    HelperKind.ofCall? (String.ofList (kind.callName.toList ++ rest)) = some kind := by
  rw [HelperKind.ofCall?, String.toList_ofList]
  cases kind <;> rfl

/-! The parts of a helper call. -/

theorem reads_helperCall (kind : HelperKind)
    (arguments : List (String × (Source → Expr → Prop))) (nonempty : arguments ≠ [])
    (each : ∀ argument ∈ arguments, Reads argument.1.toList argument.2) :
    Reads (printCall kind (arguments.map (·.1))).toList fun source e => ∃ span callee items,
      e = .call span callee [] items ∧ HelperKind.ofCall? (source.textOf span) = some kind ∧
      List.Forall₂ (fun item argument => ∃ e, item = .value e ∧ argument.2 source e) items
        arguments := by
  have isOperand : IsOperandName "figma" := by decide
  have areNames : ∀ name ∈ [kind.word], Text.isIdentifier name = true := by
    cases kind <;> decide
  have call := reads_call isOperand areNames nonempty (fun argument => argument.1.toList)
    (fun source e argument => argument.2 source e) each
  rw [toList_printCall, List.map_map]
  apply call.imp
  rintro source e ⟨span, callee, items, rfl, text, read⟩
  refine ⟨span, callee, items, rfl, ?_, read⟩
  rw [text, callText, ← toList_callName]
  exact ofCall?_callName kind _

theorem reads_string (text : String) : Reads (Text.quoted text).toList (ReadsString text) := by
  rw [toList_quoted]
  exact reads_quoted (.inl rfl) text

theorem reads_values (values : List (String × Value))
    (each : ∀ entry ∈ values, Reads entry.2.print.toList (ReadsValue entry.2)) :
    Reads (printObject (printValues values)).toList fun source e => ∃ span members,
      e = .object span members ∧ List.Forall₂ (ReadsEntry source) members values := by
  by_cases empty : values = []
  case pos =>
    subst empty
    apply (reads_emptyObject isGap_nil).imp
    rintro source _ ⟨span, rfl⟩
    exact ⟨span, [], rfl, .nil⟩
  case neg =>
    have nonempty : printValues values ≠ [] := by simpa [printValues_eq_map] using empty
    rw [toList_printObject nonempty, printValues_eq_map, List.map_map]
    apply reads_object (by simp [IsGap]) listTail_spacedBrace (by decide)
      (fun entry => (printEntry entry.1 entry.2.print).toList) ReadsEntry empty
    intro entry member depth enough
    rw [toList_printEntry] at enough ⊢
    exact Reads.member (readsKey_declared entry.1) (each entry member) _ (by
      rw [List.length_append, List.length_cons, List.length_cons] at enough
      omega)

/-! Helpers, one kind after the other. -/

theorem reads_lookUp {kind : HelperKind} {text : String} {helper : Helper}
    (print : helper.print = printCall kind [Text.quoted text])
    (noLiterals : AllFinite helper.literals = true)
    (found : ∀ source span callee span',
      HelperKind.ofCall? (source.textOf span) = some kind →
      helperOf source (.call span callee [] [.value (.string span' text)]) = .ok helper) :
    Reads helper.print.toList (ReadsHelper helper) := by
  have call := reads_helperCall kind [(Text.quoted text, ReadsString text)] (by simp) (by
    intro argument member
    obtain rfl := List.mem_singleton.mp member
    exact reads_string text)
  rw [print]
  apply call.imp
  rintro source e ⟨span, callee, items, rfl, ofCall, read⟩
  obtain ⟨item, rest, ⟨_, rfl, span', rfl⟩, last, rfl⟩ := List.forall₂_cons_right_iff.mp read
  obtain rfl := List.forall₂_nil_right_iff.mp last
  refine ⟨rfl, ?_⟩
  rw [found source span callee span' ofCall, noLiterals]
  rfl

/-- What is read for a mapping: an object literal with the entries. -/
def ReadsValues (values : List (String × Value)) (source : Source) (e : Expr) : Prop :=
  ∃ span members, e = .object span members ∧ List.Forall₂ (ReadsEntry source) members values

theorem reads_mapped {kind : HelperKind} {text : String} {values : List (String × Value)}
    {helper : Helper}
    (print : helper.print = printCall kind [Text.quoted text, printObject (printValues values)])
    (each : ∀ entry ∈ values, Reads entry.2.print.toList (ReadsValue entry.2))
    (found : ∀ source span callee span' object members,
      HelperKind.ofCall? (source.textOf span) = some kind →
      List.Forall₂ (ReadsEntry source) members values →
      (helperOf source (.call span callee []
        [.value (.string span' text), .value (.object object members)])).toOption =
          if AllFinite helper.literals then some helper else none) :
    Reads helper.print.toList (ReadsHelper helper) := by
  have call := reads_helperCall kind
    [(Text.quoted text, ReadsString text),
      (printObject (printValues values), ReadsValues values)] (by simp) (by
    intro argument member
    rcases List.mem_cons.mp member with rfl | member
    · exact reads_string text
    · obtain rfl := List.mem_singleton.mp member
      exact reads_values values each)
  rw [print]
  apply call.imp
  rintro source e ⟨span, callee, items, rfl, ofCall, read⟩
  obtain ⟨item, rest, ⟨_, rfl, span', rfl⟩, second, rfl⟩ := List.forall₂_cons_right_iff.mp read
  obtain ⟨item, rest, ⟨_, rfl, object, members, rfl, entries⟩, last, rfl⟩ :=
    List.forall₂_cons_right_iff.mp second
  obtain rfl := List.forall₂_nil_right_iff.mp last
  exact ⟨rfl, found source span callee span' object members ofCall entries⟩

section Mapped

variable {values : List (String × Value)} (distinct : DistinctKeys values)
  (each : ∀ entry ∈ values, Reads entry.2.print.toList (ReadsValue entry.2))
include distinct each

theorem reads_boolean_mapped (property : String)
    (keys : ∀ key ∈ Dictionary.keys values, key = "true" ∨ key = "false") :
    Reads (Helper.boolean property (some values)).print.toList
      (ReadsHelper (.boolean property (some values))) := by
  apply reads_mapped (by rw [Helper.print]) each
  intro source span callee span' object members ofCall entries
  have read := valuesOf_of_reads entries [] distinct
  have checked := checkBoolean_of_keys source object keys
  have whole : helperOf source (.call span callee []
      [.value (.string span' property), .value (.object object members)]) =
      valuesOf source [] members >>= fun values =>
        checkBoolean source object values >>= fun values =>
          .ok (.boolean property (some values)) := by
    rw [helperOf.eq_def]
    simp only [ofCall]
    rfl
  rw [whole, toOption_bind, read, Helper.literals, List.nil_append]
  split
  case isTrue => rw [Option.bind_some, checked]; rfl
  case isFalse => rfl

theorem reads_enum (property : String) (nonempty : values ≠ []) :
    Reads (Helper.enum property values).print.toList (ReadsHelper (.enum property values)) := by
  apply reads_mapped (by rw [Helper.print]) each
  intro source span callee span' object members ofCall entries
  have read := valuesOf_of_reads entries [] distinct
  have checked := checkEnum_of_ne_nil source object nonempty
  have whole : helperOf source (.call span callee []
      [.value (.string span' property), .value (.object object members)]) =
      valuesOf source [] members >>= fun values =>
        checkEnum source object values >>= fun values => .ok (.enum property values) := by
    rw [helperOf.eq_def]
    simp only [ofCall]
    rfl
  rw [whole, toOption_bind, read, Helper.literals, List.nil_append]
  split
  case isTrue => rw [Option.bind_some, checked]; rfl
  case isFalse => rfl

end Mapped

theorem keys_propValues (props : List (String × Helper)) :
    Dictionary.keys (propValues props) = Dictionary.keys props := by
  rw [Dictionary.keys, propValues, List.map_map]
  rfl

theorem reads_nestedProps (layer : String) {props : List (String × Helper)}
    (distinct : DistinctKeys props)
    (each : ∀ entry ∈ propValues props, Reads entry.2.print.toList (ReadsValue entry.2)) :
    Reads (Helper.nestedProps layer props).print.toList
      (ReadsHelper (.nestedProps layer props)) := by
  apply reads_mapped (by rw [Helper.print, printValues_propValues]) each
  intro source span callee span' object members ofCall entries
  have distinct' : DistinctKeys ([] ++ propValues props) := by
    rw [List.nil_append, DistinctKeys, keys_propValues]
    exact distinct
  have read := valuesOf_of_reads entries [] distinct'
  have length : members.length = props.length := by
    rw [entries.length_eq, propValues, List.length_map]
  have whole : helperOf source (.call span callee []
      [.value (.string span' layer), .value (.object object members)]) =
      valuesOf source [] members >>= fun values =>
        helpersOnly source values members >>= fun props => .ok (.nestedProps layer props) := by
    rw [helperOf.eq_def]
    simp only [ofCall]
    rfl
  rw [whole, toOption_bind, read, Helper.literals, List.nil_append, literalsOfValues_propValues]
  split
  case isTrue => rw [Option.bind_some, helpersOnly_propValues source props members length]; rfl
  case isFalse => rfl

theorem reads_listed {kind : HelperKind} {ι : Type} {items : List ι} {text : ι → String}
    {helper : Helper} (Q : Source → Expr → ι → Prop)
    (print : helper.print = printCall kind [printArray (items.map text)])
    (each : ∀ item ∈ items, Reads (text item).toList (Q · · item))
    (found : ∀ source span callee array found,
      HelperKind.ofCall? (source.textOf span) = some kind →
      List.Forall₂ (fun item x => ∃ e, item = .value e ∧ Q source e x) found items →
      (helperOf source (.call span callee [] [.value (.array array found)])).toOption =
        if AllFinite helper.literals then some helper else none) :
    Reads helper.print.toList (ReadsHelper helper) := by
  have array : Reads (printArray (items.map text)).toList fun source e => ∃ span found,
      e = .array span found ∧
        List.Forall₂ (fun item x => ∃ e, item = .value e ∧ Q source e x) found items := by
    rw [toList_printArray, List.map_map]
    exact reads_array (by simp [IsGap]) rfl (fun item => (text item).toList) Q items each
  have call := reads_helperCall kind [(printArray (items.map text), _)] (by simp) (by
    intro argument member
    obtain rfl := List.mem_singleton.mp member
    exact array)
  rw [print]
  apply call.imp
  rintro source e ⟨span, callee, items, rfl, ofCall, read⟩
  obtain ⟨item, rest, ⟨_, rfl, span', all, rfl, each⟩, last, rfl⟩ :=
    List.forall₂_cons_right_iff.mp read
  obtain rfl := List.forall₂_nil_right_iff.mp last
  exact ⟨rfl, found source span callee span' all ofCall each⟩

theorem reads_className {parts : List ClassPart}
    (each : ∀ part ∈ parts, Reads part.print.toList (ReadsClassPart part)) :
    Reads (Helper.className parts).print.toList (ReadsHelper (.className parts)) := by
  apply reads_listed (fun source e part => ReadsClassPart part source e)
    (by rw [Helper.print, printParts_eq_map]) each
  intro source span callee array found ofCall read
  have whole : helperOf source (.call span callee [] [.value (.array array found)]) =
      partsOf source found >>= fun parts => .ok (.className parts) := by
    rw [helperOf.eq_def]
    simp only [ofCall]
    rfl
  rw [whole, toOption_bind, partsOf_of_reads read, Helper.literals]
  split <;> rfl

theorem reads_children {layers : List String} (declarable : LayersDeclarable layers) :
    Reads (Helper.children layers).print.toList (ReadsHelper (.children layers)) := by
  by_cases one : ∃ layer, layers = [layer]
  case pos =>
    obtain ⟨layer, rfl⟩ := one
    apply reads_lookUp (by rw [Helper.print]) rfl
    intro source span callee span' ofCall
    rw [helperOf.eq_def]
    simp only [ofCall]
    rfl
  case neg =>
    obtain ⟨nonempty, plain⟩ := declarable.resolve_left one
    have print : (Helper.children layers).print =
        printCall .children [printArray (layers.map Text.quoted)] := by
      rw [Helper.print]
      intro layer same
      exact one ⟨layer, same⟩
    apply reads_listed (fun source e layer => ReadsString layer source e) print
      (fun layer _ => reads_string layer)
    intro source span callee array found ofCall read
    have items : layerItems source array found = .ok layers := layerItems_of_strings read plain
    cases read with
    | nil => exact absurd rfl nonempty
    | @cons item layer found layers first rest =>
      have whole : helperOf source (.call span callee []
          [.value (.array array (item :: found))]) =
          layerItems source array (item :: found) >>= fun layers => .ok (.children layers) := by
        rw [helperOf.eq_def]
        simp only [ofCall]
        rfl
      rw [whole, items]
      rfl

/-! All helpers. -/

def SnippetsStandAlone (literals : List Literal) : Prop :=
  ∀ s, Literal.snippet s ∈ literals → StandsAlone s

theorem SnippetsStandAlone.front {front back : List Literal}
    (all : SnippetsStandAlone (front ++ back)) : SnippetsStandAlone front :=
  fun s member => all s (List.mem_append_left _ member)

theorem SnippetsStandAlone.back {front back : List Literal}
    (all : SnippetsStandAlone (front ++ back)) : SnippetsStandAlone back :=
  fun s member => all s (List.mem_append_right _ member)

mutual

theorem reads_helper : ∀ helper : Helper, helper.IsDeclarable →
    SnippetsStandAlone helper.literals → Reads helper.print.toList (ReadsHelper helper)
  | .boolean property none, _, _ => by
    apply reads_lookUp (by rw [Helper.print]) rfl
    intro source span callee span' ofCall
    rw [helperOf.eq_def]
    simp only [ofCall]
    rfl
  | .boolean property (some values), declarable, all => by
    rw [Helper.IsDeclarable] at declarable
    rw [Helper.literals] at all
    exact reads_boolean_mapped declarable.2.1 (reads_entries values declarable.2.2 all) property
      declarable.1
  | .enum property values, declarable, all => by
    rw [Helper.IsDeclarable] at declarable
    rw [Helper.literals] at all
    exact reads_enum declarable.2.1 (reads_entries values declarable.2.2 all) property
      declarable.1
  | .string property, _, _ => by
    apply reads_lookUp (by rw [Helper.print]) rfl
    intro source span callee span' ofCall
    rw [helperOf.eq_def]
    simp only [ofCall]
    rfl
  | .swap property, _, _ => by
    apply reads_lookUp (by rw [Helper.print]) rfl
    intro source span callee span' ofCall
    rw [helperOf.eq_def]
    simp only [ofCall]
    rfl
  | .children layers, declarable, _ => by
    rw [Helper.IsDeclarable] at declarable
    exact reads_children declarable
  | .nestedProps layer props, declarable, all => by
    rw [Helper.IsDeclarable] at declarable
    rw [Helper.literals] at all
    exact reads_nestedProps layer declarable.1 (reads_props props declarable.2 all)
  | .className parts, declarable, all => by
    rw [Helper.IsDeclarable] at declarable
    rw [Helper.literals] at all
    exact reads_className (reads_parts parts declarable all)
  | .textContent layer, _, _ => by
    apply reads_lookUp (by rw [Helper.print]) rfl
    intro source span callee span' ofCall
    rw [helperOf.eq_def]
    simp only [ofCall]
    rfl

theorem reads_entries : ∀ values : List (String × Value), ValuesDeclarable values →
    SnippetsStandAlone (literalsOfValues values) →
    ∀ entry ∈ values, Reads entry.2.print.toList (ReadsValue entry.2)
  | [], _, _ => fun _ member => absurd member List.not_mem_nil
  | (key, .helper helper) :: rest, declarable, all => by
    rw [ValuesDeclarable] at declarable
    rw [literalsOfValues] at all
    intro entry member
    rcases List.mem_cons.mp member with rfl | later
    · exact (reads_helper helper declarable.1 all.front).imp fun _ _ read => read.value
    · exact reads_entries rest declarable.2 all.back entry later
  | (key, .literal literal) :: rest, declarable, all => by
    rw [ValuesDeclarable] at declarable
    rw [literalsOfValues] at all
    intro entry member
    rcases List.mem_cons.mp member with rfl | later
    · apply (reads_literal literal _).imp fun _ _ read => read.value
      intro s same
      exact all s (by simp [same])
    · exact reads_entries rest declarable (fun s among => all s (by simp [among])) entry later

theorem reads_props : ∀ props : List (String × Helper), PropsDeclarable props →
    SnippetsStandAlone (literalsOfProps props) →
    ∀ entry ∈ propValues props, Reads entry.2.print.toList (ReadsValue entry.2)
  | [], _, _ => fun _ member => absurd member List.not_mem_nil
  | (key, helper) :: rest, declarable, all => by
    rw [PropsDeclarable] at declarable
    rw [literalsOfProps] at all
    intro entry member
    rw [propValues, List.map_cons] at member
    rcases List.mem_cons.mp member with rfl | later
    · exact (reads_helper helper declarable.1 all.front).imp fun _ _ read => read.value
    · exact reads_props rest declarable.2 all.back entry later

theorem reads_parts : ∀ parts : List ClassPart, PartsDeclarable parts →
    SnippetsStandAlone (literalsOfParts parts) →
    ∀ part ∈ parts, Reads part.print.toList (ReadsClassPart part)
  | [], _, _ => fun _ member => absurd member List.not_mem_nil
  | .literal text :: rest, declarable, all => by
    rw [PartsDeclarable] at declarable
    rw [literalsOfParts] at all
    intro part member
    rcases List.mem_cons.mp member with rfl | later
    · exact reads_string text
    · exact reads_parts rest declarable all part later
  | .helper helper :: rest, declarable, all => by
    rw [PartsDeclarable] at declarable
    rw [literalsOfParts] at all
    intro part member
    rcases List.mem_cons.mp member with rfl | later
    · exact reads_helper helper declarable.1 all.front
    · exact reads_parts rest declarable.2 all.back part later

end

end Declaration

end DesignLink
