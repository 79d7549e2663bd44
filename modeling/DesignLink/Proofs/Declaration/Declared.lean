import DesignLink.Declaration.HelperCall
import DesignLink.Proofs.Mapping.Declarable
import DesignLink.Proofs.Results

/-!
What is read from code can be declared: keys are pairwise different, and each helper satisfies what
its call demands.
-/

namespace DesignLink

theorem valuesDeclarable_append : ∀ {front back : List (String × Value)},
    ValuesDeclarable front → ValuesDeclarable back → ValuesDeclarable (front ++ back)
  | [], _, _, back => back
  | (_, .helper _) :: _, _, front, back => by
    rw [ValuesDeclarable] at front
    rw [List.cons_append, ValuesDeclarable]
    exact ⟨front.1, valuesDeclarable_append front.2 back⟩
  | (_, .literal _) :: _, _, front, back => by
    rw [ValuesDeclarable] at front
    rw [List.cons_append, ValuesDeclarable]
    exact valuesDeclarable_append front back

namespace Declaration

open Script

def valueOf (source : Source) (e : Expr) : Except Problem Value :=
  if e.isCall then (helperOf source e).map .helper else (literalValue source e).map .literal

theorem valuesOf_field (source : Source) (before : ValueMapping) (span : Span) (key : Key)
    (computed : Bool) (e : Expr) (members : List Member) :
    valuesOf source before (.field span key computed e :: members) =
      keyText source key >>= fun key => valueOf source e >>= fun value =>
        if Dictionary.contains before key then source.complain (.duplicateKey key) span
        else valuesOf source (before ++ [(key, value)]) members := by
  rw [valuesOf, valueOf]
  refine congrArg _ (funext fun key => ?_)
  by_cases repeated : Dictionary.contains before key = true
  case pos =>
    simp only [if_pos repeated]
    split <;> rfl
  case neg =>
    simp only [if_neg repeated]
    split <;> rfl

theorem partsOf_value (source : Source) {e : Expr} (items : List Item)
    (noString : ∀ span text, e ≠ .string span text) :
    partsOf source (.value e :: items) =
      (if e.isCall then (helperOf source e).map fun helper => [.helper helper] else .ok []) >>=
        fun found => partsOf source items >>= fun others => .ok (found ++ others) := by
  cases e with
  | string span text => exact absurd rfl (noString span text)
  | _ => rw [partsOf.eq_def]; rfl

variable {source : Source}

/-! What each check makes sure of. -/

theorem ne_nil_of_checkEnum {span : Span} {values checked : ValueMapping}
    (ok : checkEnum source span values = .ok checked) : checked = values ∧ values ≠ [] := by
  unfold checkEnum at ok
  split at ok
  case isTrue => cases ok
  case isFalse nonempty =>
    obtain rfl := Except.ok.inj ok
    exact ⟨rfl, by simpa using nonempty⟩

theorem keys_of_checkBoolean {span : Span} {values checked : ValueMapping}
    (ok : checkBoolean source span values = .ok checked) :
    checked = values ∧ ∀ key ∈ Dictionary.keys values, key = "true" ∨ key = "false" := by
  unfold checkBoolean at ok
  split at ok
  case h_1 => cases ok
  case h_2 all =>
    obtain rfl := Except.ok.inj ok
    refine ⟨rfl, ?_⟩
    intro key member
    obtain ⟨entry, among, rfl⟩ := List.mem_map.mp member
    have none_ := List.find?_eq_none.mp all entry among
    by_cases isTrue : entry.1 = "true"
    case pos => exact .inl isTrue
    case neg =>
      refine .inr (Classical.byContradiction fun noFalse => none_ ?_)
      rw [decide_eq_true_eq]
      exact ⟨isTrue, noFalse⟩

theorem plain_of_layerItems {array : Span} : ∀ {items : List Item} {layers : List String},
    layerItems source array items = .ok layers →
      layers.length = items.length ∧ ∀ layer ∈ layers, layer.toList.contains '*' = false
  | [], _, ok => by
    rw [layerItems] at ok
    obtain rfl := Except.ok.inj ok
    exact ⟨rfl, fun _ absurd_ => nomatch absurd_⟩
  | .value e :: items, layers, ok => by
    cases e with
    | string span layer =>
      cases wildcard : layer.toList.contains '*' with
      | true =>
        rw [layerItems, wildcard] at ok
        cases ok
      | false =>
        rw [layerItems, wildcard] at ok
        obtain ⟨later, read, ok⟩ := exists_of_bind
          (show layerItems source array items >>= (fun layers => .ok (layer :: layers)) =
            .ok layers from ok)
        obtain rfl := Except.ok.inj ok
        obtain ⟨length, plain⟩ := plain_of_layerItems read
        refine ⟨congrArg Nat.succ length, ?_⟩
        intro other member
        rcases List.mem_cons.mp member with rfl | among
        · exact wildcard
        · exact plain other among
    | _ => cases ok
  | .spread _ _ :: _, _, ok => by cases ok
  | .hole _ :: _, _, ok => by cases ok

theorem layersDeclarable_of_childLayers {span : Span} {arguments : List Item}
    {layers : List String} (ok : childLayers source span arguments = .ok layers) :
    LayersDeclarable layers := by
  unfold childLayers at ok
  split at ok
  case h_1 layer _ => exact .inl ⟨layer, (Except.ok.inj ok).symm⟩
  case h_2 array item items _ =>
    obtain ⟨length, plain⟩ := plain_of_layerItems ok
    refine .inr ⟨?_, plain⟩
    rintro rfl
    cases length
  case h_3 => cases ok

theorem propsDeclarable_of_helpersOnly : ∀ {values : ValueMapping} {members : List Member}
    {props : PropMapping}, helpersOnly source values members = .ok props →
      ValuesDeclarable values →
      PropsDeclarable props ∧ (Dictionary.keys props).Sublist (Dictionary.keys values)
  | [], _, _, ok, _ => by
    rw [helpersOnly] at ok
    obtain rfl := Except.ok.inj ok
    · exact ⟨by rw [PropsDeclarable]; trivial, List.nil_sublist _⟩
    · rintro _ _ _ _ _ ⟨⟩
    · rintro _ _ _ _ _ ⟨⟩
  | _ :: _, [], _, ok, _ => by
    rw [helpersOnly] at ok
    obtain rfl := Except.ok.inj ok
    · exact ⟨by rw [PropsDeclarable]; trivial, List.nil_sublist _⟩
    · rintro _ _ _ _ _ _ ⟨⟩
    · rintro _ _ _ _ _ _ ⟨⟩
  | (key, .helper helper) :: values, member :: members, props, ok, declarable => by
    rw [helpersOnly] at ok
    rw [ValuesDeclarable] at declarable
    obtain ⟨later, read, ok⟩ := exists_of_bind ok
    obtain rfl := Except.ok.inj ok
    obtain ⟨rest, keys⟩ := propsDeclarable_of_helpersOnly read declarable.2
    rw [PropsDeclarable]
    exact ⟨⟨declarable.1, rest⟩, keys.cons_cons key⟩
  | (_, .literal _) :: _, _ :: _, _, ok, _ => by
    rw [helpersOnly] at ok
    cases ok

theorem distinctKeys_concat {α : Type} {entries : List (String × α)} {key : String} (value : α)
    (distinct : DistinctKeys entries) (absent : Dictionary.contains entries key = false) :
    DistinctKeys (entries ++ [(key, value)]) := by
  rw [DistinctKeys, Dictionary.keys, List.map_append, List.map_singleton]
  apply List.nodup_append.mpr
  refine ⟨distinct, by simp, ?_⟩
  intro other member last same
  obtain rfl := List.mem_singleton.mp same
  obtain ⟨entry, among, rfl⟩ := List.mem_map.mp member
  rw [Dictionary.contains, List.any_eq_false] at absent
  intro equal
  exact absent entry among (decide_eq_true equal)

/-! What is read at each level. -/

mutual

theorem isDeclarable_of_helperOf : ∀ (e : Expr) {helper : Helper},
    helperOf source e = .ok helper → helper.IsDeclarable
  | .call span callee types arguments, helper, ok => by
    rw [helperOf.eq_def] at ok
    dsimp only at ok
    split at ok
    case h_1 => cases ok
    case h_2 =>
      obtain ⟨property, -, called⟩ := exists_of_bind ok
      split at called
      case h_1 head object members tail =>
        obtain ⟨values, read, checks⟩ := exists_of_bind called
        obtain ⟨checked, check, result⟩ := exists_of_bind checks
        obtain ⟨same, keys⟩ := keys_of_checkBoolean check
        obtain rfl := Except.ok.inj result
        obtain ⟨distinct, declarable⟩ := declarable_of_valuesOf members read List.nodup_nil
          (by rw [ValuesDeclarable]; trivial)
        rw [Helper.IsDeclarable, same]
        exact ⟨keys, distinct, declarable⟩
      case h_2 => cases called
      case h_3 =>
        obtain rfl := Except.ok.inj called
        rw [Helper.IsDeclarable]
        trivial
    case h_3 =>
      obtain ⟨property, -, called⟩ := exists_of_bind ok
      split at called
      case h_1 head object members tail =>
        obtain ⟨values, read, checks⟩ := exists_of_bind called
        obtain ⟨checked, check, result⟩ := exists_of_bind checks
        obtain ⟨same, nonempty⟩ := ne_nil_of_checkEnum check
        obtain rfl := Except.ok.inj result
        obtain ⟨distinct, declarable⟩ := declarable_of_valuesOf members read List.nodup_nil
          (by rw [ValuesDeclarable]; trivial)
        rw [Helper.IsDeclarable, same]
        exact ⟨nonempty, distinct, declarable⟩
      case h_2 => cases called
    case h_4 =>
      obtain ⟨property, -, result⟩ := exists_of_bind ok
      obtain rfl := Except.ok.inj result
      rw [Helper.IsDeclarable]
      trivial
    case h_5 =>
      obtain ⟨property, -, result⟩ := exists_of_bind ok
      obtain rfl := Except.ok.inj result
      rw [Helper.IsDeclarable]
      trivial
    case h_6 =>
      obtain ⟨layers, read, result⟩ := exists_of_bind ok
      obtain rfl := Except.ok.inj result
      rw [Helper.IsDeclarable]
      exact layersDeclarable_of_childLayers read
    case h_7 =>
      obtain ⟨layer, -, called⟩ := exists_of_bind ok
      split at called
      case h_1 head object members tail =>
        obtain ⟨values, read, helpers⟩ := exists_of_bind called
        obtain ⟨props, only, result⟩ := exists_of_bind helpers
        obtain rfl := Except.ok.inj result
        obtain ⟨distinct, declarable⟩ := declarable_of_valuesOf members read List.nodup_nil
          (by rw [ValuesDeclarable]; trivial)
        obtain ⟨each, keys⟩ := propsDeclarable_of_helpersOnly only declarable
        rw [Helper.IsDeclarable]
        exact ⟨distinct.sublist keys, each⟩
      case h_2 => cases called
    case h_8 =>
      split at ok
      case h_1 array items tail =>
        obtain ⟨parts, read, result⟩ := exists_of_bind ok
        obtain rfl := Except.ok.inj result
        rw [Helper.IsDeclarable]
        exact declarable_of_partsOf items read
      case h_2 => cases ok
    case h_9 =>
      obtain ⟨layer, -, result⟩ := exists_of_bind ok
      obtain rfl := Except.ok.inj result
      rw [Helper.IsDeclarable]
      trivial
  | .identifier _ _, _, ok => by cases ok
  | .string _ _, _, ok => by cases ok
  | .number _ _, _, ok => by cases ok
  | .boolean _ _, _, ok => by cases ok
  | .template _ _, _, ok => by cases ok
  | .object _ _, _, ok => by cases ok
  | .array _ _, _, ok => by cases ok
  | .function _ _, _, ok => by cases ok
  | .markup _ _, _, ok => by cases ok
  | .property _ _, _, ok => by cases ok
  | .element _ _ _, _, ok => by cases ok
  | .chain _ _, _, ok => by cases ok
  | .instantiation _ _ _, _, ok => by cases ok
  | .nonNull _ _, _, ok => by cases ok
  | .negation _ _, _, ok => by cases ok
  | .prefixed _ _, _, ok => by cases ok
  | .logical _ _ _ _, _, ok => by cases ok
  | .ascription _ _ _, _, ok => by cases ok
  | .assignment _ _ _ _, _, ok => by cases ok
  | .group _ _, _, ok => by cases ok
  | .other _ _, _, ok => by cases ok

theorem declarable_of_valuesOf : ∀ (members : List Member) {before values : ValueMapping},
    valuesOf source before members = .ok values → DistinctKeys before → ValuesDeclarable before →
      DistinctKeys values ∧ ValuesDeclarable values
  | [], _, _, ok, distinct, declarable => by
    rw [valuesOf] at ok
    obtain rfl := Except.ok.inj ok
    exact ⟨distinct, declarable⟩
  | .spread _ _ :: _, _, _, ok, _, _ => by
    rw [valuesOf] at ok
    cases ok
  | .initialized _ _ _ :: _, _, _, ok, _, _ => by
    rw [valuesOf] at ok
    cases ok
  | .field span key computed e :: members, before, values, ok, distinct, declarable => by
    rw [valuesOf_field] at ok
    obtain ⟨key, -, valued⟩ := exists_of_bind ok
    obtain ⟨value, given, rest⟩ := exists_of_bind valued
    split at rest
    case isTrue => cases rest
    case isFalse absent =>
      have one : ValuesDeclarable [(key, value)] := by
        rw [valueOf] at given
        split at given
        case isTrue =>
          obtain ⟨helper, read, rfl⟩ := exists_of_map given
          rw [ValuesDeclarable, ValuesDeclarable]
          exact ⟨isDeclarable_of_helperOf e read, trivial⟩
        case isFalse =>
          obtain ⟨literal, -, rfl⟩ := exists_of_map given
          rw [ValuesDeclarable, ValuesDeclarable]
          trivial
      have absent' : Dictionary.contains before key = false := Bool.eq_false_iff.mpr absent
      exact declarable_of_valuesOf members rest (distinctKeys_concat value distinct absent')
        (valuesDeclarable_append declarable one)

theorem declarable_of_partsOf : ∀ (items : List Item) {parts : List ClassPart},
    partsOf source items = .ok parts → PartsDeclarable parts
  | [], _, ok => by
    rw [partsOf] at ok
    obtain rfl := Except.ok.inj ok
    rw [PartsDeclarable]
    trivial
  | .value e :: items, parts, ok => by
    by_cases isString : ∃ span text, e = .string span text
    case pos =>
      obtain ⟨span, text, rfl⟩ := isString
      rw [partsOf] at ok
      obtain ⟨later, read, result⟩ := exists_of_bind ok
      obtain rfl := Except.ok.inj result
      rw [PartsDeclarable]
      exact declarable_of_partsOf items read
    case neg =>
      rw [partsOf_value source items fun span text same => isString ⟨span, text, same⟩] at ok
      obtain ⟨found, first, rest⟩ := exists_of_bind ok
      obtain ⟨others, read, result⟩ := exists_of_bind rest
      obtain rfl := Except.ok.inj result
      have later : PartsDeclarable others := declarable_of_partsOf items read
      split at first
      case isTrue =>
        obtain ⟨helper, helped, rfl⟩ := exists_of_map first
        rw [List.singleton_append, PartsDeclarable]
        exact ⟨isDeclarable_of_helperOf e helped, later⟩
      case isFalse =>
        obtain rfl := Except.ok.inj first
        exact later
  | .spread _ _ :: items, parts, ok => by
    rw [partsOf.eq_def] at ok
    exact declarable_of_partsOf items ok
  | .hole _ :: items, parts, ok => by
    rw [partsOf.eq_def] at ok
    exact declarable_of_partsOf items ok

end

theorem declarable_of_mappingOf {members : List Member} {values : ValueMapping}
    (read : mappingOf source members = .ok values) :
    DistinctKeys values ∧ ValuesDeclarable values :=
  declarable_of_valuesOf members read List.nodup_nil (by rw [ValuesDeclarable]; trivial)

theorem isDeclarable_of_propsOf {members : List Member} {props : PropMapping}
    (read : propsOf source members = .ok props) : props.IsDeclarable := by
  obtain ⟨values, given, only⟩ := exists_of_bind read
  obtain ⟨distinct, declarable⟩ := declarable_of_mappingOf given
  obtain ⟨each, keys⟩ := propsDeclarable_of_helpersOnly only declarable
  exact ⟨distinct.sublist keys, each⟩

/-- Whatever is accepted is well-formed at every depth: a helper call, the values of an object
literal, and props. -/
theorem wellFormed_of_accepted (source : Source) :
    (∀ e helper, helperOf source e = .ok helper → helper.IsDeclarable) ∧
    (∀ members values, mappingOf source members = .ok values →
      DistinctKeys values ∧ ValuesDeclarable values) ∧
    ∀ members props, propsOf source members = .ok props → props.IsDeclarable := by
  refine ⟨?_, ?_, ?_⟩
  · intro e helper read
    exact isDeclarable_of_helperOf e read
  · intro members values read
    exact declarable_of_mappingOf read
  · intro members props read
    exact isDeclarable_of_propsOf read

def rowCall : String := "figma.boolean(\"On\", \x7b true: figma.children([\"A\", \"B\"]) \x7d)"

theorem wellFormed_of_accepted_row :
    (∃ helper, readHelper "inline.tsx" rowCall = .ok helper ∧ helper.IsDeclarable) ∧
    ∃ source members values props, propsOf source members = .ok props ∧
      Dictionary.keys props = ["row"] ∧ props.IsDeclarable ∧
      mappingOf source members = .ok values ∧ DistinctKeys values ∧ ValuesDeclarable values := by
  have called : (readHelper "inline.tsx" rowCall).isOk = true := by decide +kernel
  have listed : (readProps "inline.tsx" ("\x7b row: " ++ rowCall ++ " \x7d")).toOption.map
      Dictionary.keys = some ["row"] := by decide +kernel
  constructor
  · cases read : readHelper "inline.tsx" rowCall with
    | error problem =>
      rw [read] at called
      cases called
    | ok helper =>
      obtain ⟨⟨source, e⟩, -, helped⟩ := exists_of_bind read
      exact ⟨helper, rfl, (wellFormed_of_accepted source).1 e helper helped⟩
  · cases read : readProps "inline.tsx" ("\x7b row: " ++ rowCall ++ " \x7d") with
    | error problem =>
      rw [read] at listed
      cases listed
    | ok props =>
      rw [read] at listed
      obtain ⟨⟨source, e⟩, -, rest⟩ := exists_of_bind read
      cases e with
      | object span members =>
        obtain ⟨values, given, -⟩ := exists_of_bind
          (show mappingOf source members >>= (helpersOnly source · members) = .ok props from rest)
        exact ⟨source, members, values, props, rest, Option.some.inj listed,
          (wellFormed_of_accepted source).2.2 members props rest, given,
          (wellFormed_of_accepted source).2.1 members values given⟩
      | _ => cases rest

end Declaration

end DesignLink
