import DesignLink.Mapping.Derived
import DesignLink.Proofs.Dictionary
import DesignLink.Proofs.Mapping.LookUps
import DesignLink.Proofs.Text.Words
import Mathlib.Data.List.Induction

/-!
Derived mappings, definition by definition. A definition has a helper or not, by its type alone; of
the definitions with a helper that share one code name the first gives the entry, and the entries
stand in the order of these definitions. Main statement: `derivedProps_exact`.
-/

namespace DesignLink

/-! What one definition stands for. -/

def typeOf (definition : Json) : Option String := (definition.get? "type").bind Json.text?

def textOptions (definition : Json) : List String :=
  (((definition.get? "variantOptions").bind Json.items?).getD []).filterMap Json.text?

/-- Booleans, texts and instances have a helper, and variants that have a text as an option. -/
def HasHelper (definition : Json) : Prop :=
  typeOf definition = some "BOOLEAN" ∨ typeOf definition = some "TEXT" ∨
    typeOf definition = some "INSTANCE_SWAP" ∨
    typeOf definition = some "VARIANT" ∧ textOptions definition ≠ []

instance : DecidablePred HasHelper := fun definition => by
  unfold HasHelper
  infer_instance

/-- The helper of a definition is of the kind of its type and looks its whole key up. A variant maps
each option that is a text, once, to a string that is named after it. -/
inductive Defines (property : String) (definition : Json) : Helper → Prop where
  | boolean (typed : typeOf definition = some "BOOLEAN") :
    Defines property definition (.boolean property none)
  | text (typed : typeOf definition = some "TEXT") : Defines property definition (.string property)
  | swap (typed : typeOf definition = some "INSTANCE_SWAP") :
    Defines property definition (.swap property)
  | variant (values : ValueMapping) (typed : typeOf definition = some "VARIANT")
    (some_ : textOptions definition ≠ [])
    (keys : Dictionary.keys values = (textOptions definition).eraseDups)
    (named : ∀ entry ∈ values, entry.2 = .literal (.string (Text.camel entry.1))) :
    Defines property definition (.enum property values)

/-! Values of a variant. -/

theorem variantValues_eq (definition : Json) : variantValues definition =
    (textOptions definition).foldl (fun values option =>
      Dictionary.put values option (.literal (.string (Text.camel option)))) [] := rfl

theorem keys_variantValues (definition : Json) :
    Dictionary.keys (variantValues definition) = (textOptions definition).eraseDups := by
  rw [variantValues_eq]
  generalize textOptions definition = options
  induction options using List.reverseRecOn with
  | nil => rfl
  | append_singleton front last ih =>
    rw [List.foldl_append, List.foldl_cons, List.foldl_nil, keys_put, ih, eraseDups_concat]

theorem named_variantValues (definition : Json) :
    ∀ entry ∈ variantValues definition, entry.2 = .literal (.string (Text.camel entry.1)) := by
  rw [variantValues_eq]
  generalize textOptions definition = options
  induction options using List.reverseRecOn with
  | nil => exact fun _ member => absurd member List.not_mem_nil
  | append_singleton front last ih =>
    intro entry member
    rw [List.foldl_append, List.foldl_cons, List.foldl_nil] at member
    rcases mem_put member with before | rfl
    · exact ih entry before
    · rfl

theorem eq_of_named {values others : ValueMapping}
    (same : Dictionary.keys values = Dictionary.keys others)
    (named : ∀ entry ∈ values, entry.2 = .literal (.string (Text.camel entry.1)))
    (named' : ∀ entry ∈ others, entry.2 = .literal (.string (Text.camel entry.1))) :
    values = others := by
  have rebuilt : ∀ {values : ValueMapping},
      (∀ entry ∈ values, entry.2 = .literal (.string (Text.camel entry.1))) →
        values = (Dictionary.keys values).map fun key =>
          (key, .literal (.string (Text.camel key))) := by
    intro values named
    rw [Dictionary.keys, List.map_map]
    conv_lhs => rw [← List.map_id values]
    apply List.map_congr_left
    intro entry member
    exact Prod.ext rfl (named entry member)
  rw [rebuilt named, rebuilt named', same]

/-! Helpers of definitions. -/

theorem eq_nil_iff_of_keys {values : ValueMapping} {options : List String}
    (keys : Dictionary.keys values = options.eraseDups) : values = [] ↔ options = [] := by
  rw [← eraseDups_eq_nil_iff, ← keys, Dictionary.keys, List.map_eq_nil_iff]

theorem typeOf_of_getD {definition : Json} {text : String} (named : text ≠ "")
    (typed : (typeOf definition).getD "" = text) : typeOf definition = some text := by
  cases shape : typeOf definition with
  | none => rw [shape] at typed; exact absurd typed.symm named
  | some other => rw [shape] at typed; rw [← typed]; rfl

theorem helperOfDefinition?_eq_some_iff {property : String} {definition : Json}
    {helper : Helper} :
    helperOfDefinition? property definition = some helper ↔ Defines property definition helper := by
  have type_ : (definition.get? "type").bind Json.text? = typeOf definition := rfl
  constructor
  · intro found
    unfold helperOfDefinition? at found
    rw [type_] at found
    split at found
    case h_1 typed =>
      cases found
      exact .boolean (typeOf_of_getD (by decide) typed)
    case h_2 typed =>
      cases found
      exact .text (typeOf_of_getD (by decide) typed)
    case h_3 typed =>
      cases found
      exact .swap (typeOf_of_getD (by decide) typed)
    case h_4 typed =>
      split at found
      case h_1 => cases found
      case h_2 some_ =>
        cases found
        have keys := keys_variantValues definition
        exact .variant _ (typeOf_of_getD (by decide) typed) (mt (eq_nil_iff_of_keys keys).mpr some_)
          keys (named_variantValues definition)
    case h_5 => cases found
  · intro defines
    unfold helperOfDefinition?
    rw [type_]
    cases defines with
    | boolean typed => rw [typed]; rfl
    | text typed => rw [typed]; rfl
    | swap typed => rw [typed]; rfl
    | variant values typed some_ keys named =>
      have same : variantValues definition = values :=
        eq_of_named ((keys_variantValues definition).trans keys.symm)
          (named_variantValues definition) named
      rw [typed, same]
      cases values with
      | nil => exact absurd ((eq_nil_iff_of_keys keys).mp rfl) some_
      | cons entry rest => rfl

theorem Defines.unique {property : String} {definition : Json} {helper other : Helper}
    (defines : Defines property definition helper) (defines' : Defines property definition other) :
    helper = other := by
  have found := helperOfDefinition?_eq_some_iff.mpr defines
  rw [helperOfDefinition?_eq_some_iff.mpr defines'] at found
  exact (Option.some.inj found).symm

theorem exists_defines_iff {property : String} {definition : Json} :
    (∃ helper, Defines property definition helper) ↔ HasHelper definition := by
  constructor
  · rintro ⟨helper, defines⟩
    cases defines with
    | boolean typed => exact .inl typed
    | text typed => exact .inr (.inl typed)
    | swap typed => exact .inr (.inr (.inl typed))
    | variant values typed some_ _ _ => exact .inr (.inr (.inr ⟨typed, some_⟩))
  · rintro (typed | typed | typed | ⟨typed, some_⟩)
    · exact ⟨_, .boolean typed⟩
    · exact ⟨_, .text typed⟩
    · exact ⟨_, .swap typed⟩
    · exact ⟨_, .variant _ typed some_ (keys_variantValues definition)
        (named_variantValues definition)⟩

/-! Definitions in their order. -/

def codeNames (definitions : List (String × Json)) : List String :=
  (definitions.filter fun definition => HasHelper definition.2).map (codeName ·.1)

def firstNamed (name : String) (definitions : List (String × Json)) : Option (String × Json) :=
  definitions.find? fun definition => HasHelper definition.2 ∧ codeName definition.1 = name

theorem firstNamed_eq_none_iff {name : String} {definitions : List (String × Json)} :
    firstNamed name definitions = none ↔ name ∉ codeNames definitions := by
  rw [firstNamed, List.find?_eq_none, codeNames]
  simp only [List.mem_map, List.mem_filter, decide_eq_true_eq]
  constructor
  · rintro no ⟨definition, ⟨among, hasHelper⟩, named⟩
    exact no definition among ⟨hasHelper, named⟩
  · rintro no definition among ⟨hasHelper, named⟩
    exact no ⟨definition, ⟨among, hasHelper⟩, named⟩

section Walk

variable {property : String} {definition : Json} {before : List (String × Json)}

theorem codeNames_concat_of_hasHelper (hasHelper : HasHelper definition) :
    codeNames (before ++ [(property, definition)]) = codeNames before ++ [codeName property] := by
  simp [codeNames, hasHelper]

theorem codeNames_concat_of_not (noHelper : ¬ HasHelper definition) :
    codeNames (before ++ [(property, definition)]) = codeNames before := by
  simp [codeNames, noHelper]

theorem firstNamed_concat (name : String) : firstNamed name (before ++ [(property, definition)]) =
    (firstNamed name before).or
      (if HasHelper definition ∧ codeName property = name then some (property, definition)
        else none) := by
  rw [firstNamed, List.find?_append, firstNamed, List.find?_singleton]
  simp only [decide_eq_true_eq]

/-- The first of the definitions so far is still the first one, unless the last one is the only one
with the name. -/
theorem firstNamed_concat_of_ne {name : String}
    (other : ¬ (HasHelper definition ∧ codeName property = name) ∨ name ∈ codeNames before) :
    firstNamed name (before ++ [(property, definition)]) = firstNamed name before := by
  rw [firstNamed_concat]
  rcases other with other | named
  · rw [if_neg other, Option.or_none]
  · cases first : firstNamed name before with
    | none => exact absurd named (firstNamed_eq_none_iff.mp first)
    | some found => rfl

/-- What a loop over definitions has put together: the entry under each name is that of the first
definition with the name, and the entries stand in the order of these definitions. -/
structure Collects (definitions : List (String × Json)) (props : PropMapping) : Prop where
  names : Dictionary.keys props = (codeNames definitions).eraseDups
  entries : ∀ name helper, (name, helper) ∈ props ↔ ∃ property definition,
    firstNamed name definitions = some (property, definition) ∧
      Defines property definition helper

theorem collects_nil : Collects [] [] where
  names := rfl
  entries name helper := by simp [firstNamed]

variable {props : PropMapping}

theorem Collects.mem_keys_iff (collects : Collects before props) {name : String} :
    name ∈ Dictionary.keys props ↔ name ∈ codeNames before := by
  rw [collects.names, List.mem_eraseDups]

theorem Collects.pass (collects : Collects before props)
    (passed : ¬ HasHelper definition ∨ codeName property ∈ Dictionary.keys props) :
    Collects (before ++ [(property, definition)]) props where
  names := by
    by_cases hasHelper : HasHelper definition
    · have taken := passed.resolve_left (not_not_intro hasHelper)
      rw [codeNames_concat_of_hasHelper hasHelper, eraseDups_concat, ← collects.names,
        if_pos taken]
    · rw [codeNames_concat_of_not hasHelper, collects.names]
  entries name helper := by
    have first : firstNamed name (before ++ [(property, definition)]) = firstNamed name before := by
      apply firstNamed_concat_of_ne
      by_cases same : HasHelper definition ∧ codeName property = name
      · obtain ⟨hasHelper, rfl⟩ := same
        exact .inr (collects.mem_keys_iff.mp (passed.resolve_left (not_not_intro hasHelper)))
      · exact .inl same
    rw [first]
    exact collects.entries name helper

theorem Collects.add (collects : Collects before props) {helper : Helper}
    (defines : Defines property definition helper)
    (new : codeName property ∉ Dictionary.keys props) :
    Collects (before ++ [(property, definition)]) (props ++ [(codeName property, helper)]) where
  names := by
    have hasHelper := exists_defines_iff.mp ⟨helper, defines⟩
    rw [codeNames_concat_of_hasHelper hasHelper, eraseDups_concat, ← collects.names, if_neg new,
      Dictionary.keys, Dictionary.keys, List.map_append, List.map_singleton]
  entries name other := by
    have hasHelper := exists_defines_iff.mp ⟨helper, defines⟩
    rw [List.mem_append, List.mem_singleton, collects.entries]
    by_cases same : codeName property = name
    case pos =>
      have absent := mt collects.mem_keys_iff.mpr new
      subst same
      rw [firstNamed_concat, firstNamed_eq_none_iff.mpr absent, Option.none_or,
        if_pos ⟨hasHelper, rfl⟩]
      constructor
      · intro either
        obtain ⟨_, _, none_, -⟩ | last := either
        · cases none_
        · rw [(Prod.mk.inj last).2]
          exact ⟨property, definition, rfl, defines⟩
      · rintro ⟨_, _, last, defines'⟩
        cases last
        rw [defines.unique defines']
        exact .inr rfl
    case neg =>
      rw [firstNamed_concat_of_ne (.inl fun both => same both.2)]
      simp [Ne.symm same]

theorem derivedFrom_of_passed (rest : List (String × Json))
    (passed : ¬ HasHelper definition ∨ codeName property ∈ Dictionary.keys props) :
    derivedFrom props ((property, definition) :: rest) = derivedFrom props rest := by
  rw [derivedFrom]
  rcases passed with noHelper | taken
  · have none_ : helperOfDefinition? property definition = none := by
      apply Option.eq_none_iff_forall_ne_some.mpr
      intro helper found
      exact noHelper (exists_defines_iff.mp ⟨helper, helperOfDefinition?_eq_some_iff.mp found⟩)
    rw [none_]
    exact ite_self _
  · rw [contains_iff_mem_keys.mpr taken, Bool.or_true, if_pos rfl]

/-- A name is never empty, so nothing but its type and its name can keep a definition out. -/
theorem derivedFrom_of_added (rest : List (String × Json)) {helper : Helper}
    (defines : Defines property definition helper)
    (new : codeName property ∉ Dictionary.keys props) :
    derivedFrom props ((property, definition) :: rest) =
      derivedFrom (props ++ [(codeName property, helper)]) rest := by
  have absent : Dictionary.contains props (codeName property) = false :=
    Bool.eq_false_iff.mpr (mt contains_iff_mem_keys.mp new)
  have filled : (codeName property).isEmpty = false := by
    obtain ⟨c, more, shape, -⟩ := Text.isPropName_camel (withoutNodeId property)
    have name : (codeName property).toList = c :: more := shape
    rw [Bool.eq_false_iff, ne_eq, String.isEmpty_iff, ← String.toList_eq_nil_iff, name]
    exact List.cons_ne_nil c more
  rw [derivedFrom, absent, filled, helperOfDefinition?_eq_some_iff.mpr defines]
  rfl

end Walk

/-- The loop over the definitions that are left, from what it has put together so far. -/
theorem collects_derivedFrom : ∀ {left before : List (String × Json)} {props : PropMapping},
    Collects before props → Collects (before ++ left) (derivedFrom props left)
  | [], before, props, collects => by
    rw [List.append_nil]
    exact collects
  | (property, definition) :: rest, before, props, collects => by
    rw [List.append_cons]
    by_cases passed : ¬ HasHelper definition ∨ codeName property ∈ Dictionary.keys props
    case pos =>
      rw [derivedFrom_of_passed rest passed]
      exact collects_derivedFrom (collects.pass passed)
    case neg =>
      rw [not_or, not_not] at passed
      obtain ⟨hasHelper, new⟩ := passed
      obtain ⟨helper, defines⟩ := exists_defines_iff.mpr hasHelper
      rw [derivedFrom_of_added rest defines new]
      exact collects_derivedFrom (collects.add defines new)

/-! Derived mappings. -/

theorem Defines.noNesting {property : String} {definition : Json} {helper : Helper}
    (defines : Defines property definition helper) : NoNesting helper.shown := by
  have alone : ∀ other : Helper, other.inner = [] → other.kind ≠ .nestedProps →
      NoNesting other.shown := by
    intro other inner kind shown member
    rw [Helper.shown, inner, List.mem_singleton] at member
    rw [member]
    exact kind
  cases defines with
  | boolean => exact alone _ (by rw [Helper.inner]) nofun
  | text => exact alone _ (by rw [Helper.inner]) nofun
  | swap => exact alone _ (by rw [Helper.inner]) nofun
  | variant values _ _ _ named =>
    refine alone (.enum property values) ?_ nofun
    rw [Helper.inner, shownInValues_eq, ValueMapping.shown, List.flatMap_eq_nil_iff]
    intro entry member
    rw [named entry member]
    rfl

theorem collects_derivedProps (c : Component) :
    Collects (c.definitions.getD []) c.derivedProps :=
  collects_derivedFrom collects_nil

/-- The props of a component. The entry under each name is the one that the first definition with a
helper and this name gives: the helper is of the kind of the definition's type and has its whole
key, and nothing else is among the props. The names are those of the definitions with a helper, in
their order and each once; each one is a name of a property. And the code of the props can always
be written. -/
theorem derivedProps_exact (c : Component) :
    (∀ name helper, (name, helper) ∈ c.derivedProps ↔ ∃ property definition,
      firstNamed name (c.definitions.getD []) = some (property, definition) ∧
        Defines property definition helper) ∧
    Dictionary.keys c.derivedProps = (codeNames (c.definitions.getD [])).eraseDups ∧
    (∀ name ∈ Dictionary.keys c.derivedProps, Text.IsPropName name) ∧
    ∀ selector, ∃ code, c.derivedProps.render selector = .ok code := by
  have collects := collects_derivedProps c
  refine ⟨collects.entries, collects.names, ?_, ?_⟩
  · intro name member
    have named := collects.mem_keys_iff.mp member
    obtain ⟨definition, -, rfl⟩ := List.mem_map.mp named
    exact Text.isPropName_camel _
  · intro selector
    have fine : NoNesting c.derivedProps.shown := by
      intro shown member
      obtain ⟨⟨name, helper⟩, among, inside⟩ := List.mem_flatMap.mp member
      obtain ⟨property, definition, -, defines⟩ := (collects.entries name helper).mp among
      exact defines.noNesting shown inside
    obtain ⟨entries, rendered, -⟩ := threads_renderProps fine
    exact ⟨_, by rw [PropMapping.render, renderProps_layerOf, rendered]; rfl⟩

/-- A property with another one of its name before it, and one of a type without a helper. -/
def labelDefinitions : List (String × Json) :=
  [("Slot", .object [("type", .string "SLOT")]),
    ("3D label#12:3", .object [("type", .string "TEXT")]),
    ("Size", .object [("type", .string "VARIANT"),
      ("variantOptions", .list [.string "Extra Small", .null, .string "Extra Small"])]),
    ("3D-label", .object [("type", .string "BOOLEAN")])]

example : Dictionary.keys (derivedFrom [] labelDefinitions) = ["3DLabel", "size"] := by
  decide +kernel

end DesignLink
