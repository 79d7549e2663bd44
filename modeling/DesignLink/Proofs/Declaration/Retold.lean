import DesignLink.Proofs.Declaration.Declared
import DesignLink.Proofs.Layout.Tree

/-!
The same code in two sources. An expression that stands elsewhere in another source, with the same
text at each of its expressions, gives the same values there: readers look at texts, never at
places, except to complain.
-/

namespace DesignLink

namespace Script

variable (f : Span → Span)

mutual

/-- An expression with another span in place of each of its spans. -/
def Expr.moved : Expr → Expr
  | .identifier span name => .identifier (f span) name
  | .string span value => .string (f span) value
  | .number span value => .number (f span) value
  | .boolean span value => .boolean (f span) value
  | .template span parts => .template (f span) (movedAll parts)
  | .object span members => .object (f span) (movedMembers members)
  | .array span items => .array (f span) (movedItems items)
  | .function span parts => .function (f span) (movedAll parts)
  | .markup span parts => .markup (f span) (movedAll parts)
  | .call span callee types arguments =>
    .call (f span) callee.moved (movedAll types) (movedItems arguments)
  | .property span object => .property (f span) object.moved
  | .element span object index => .element (f span) object.moved (movedAll index)
  | .chain span inner => .chain (f span) inner.moved
  | .instantiation span inner types => .instantiation (f span) inner.moved (movedAll types)
  | .nonNull span inner => .nonNull (f span) inner.moved
  | .negation span operand => .negation (f span) operand.moved
  | .prefixed span operand => .prefixed (f span) operand.moved
  | .logical span coalesces left right => .logical (f span) coalesces left.moved right.moved
  | .ascription span inner types => .ascription (f span) inner.moved (movedAll types)
  | .assignment span plain target value => .assignment (f span) plain target.moved value.moved
  | .group span inner => .group (f span) inner.moved
  | .other span parts => .other (f span) (movedAll parts)

def movedAll : List Expr → List Expr
  | [] => []
  | e :: rest => e.moved :: movedAll rest

def Key.moved : Key → Key
  | .name span text => .name (f span) text
  | .expression e => .expression e.moved

def Member.moved : Member → Member
  | .field span key computed value => .field (f span) key.moved computed value.moved
  | .spread span value => .spread (f span) value.moved
  | .initialized span name value => .initialized (f span) name.moved value.moved

def movedMembers : List Member → List Member
  | [] => []
  | member :: rest => member.moved :: movedMembers rest

def Item.moved : Item → Item
  | .value e => .value e.moved
  | .spread span e => .spread (f span) e.moved
  | .hole span => .hole (f span)

def movedItems : List Item → List Item
  | [] => []
  | item :: rest => item.moved :: movedItems rest

end

end Script

namespace Declaration

open Script

/-- Each expression in an expression has the same text where it is moved to in another source. -/
abbrev Retold (f : Span → Span) (source source' : Source) : Expr → Prop :=
  Expr.Everywhere fun p => source'.textOf (f p.span) = source.textOf p.span

variable {f : Span → Span} {source source' : Source} {e p : Expr} {span : Span}

/-! Texts and names. -/

theorem isCall_moved : (e.moved f).isCall = e.isCall := by
  cases e <;> simp only [Expr.moved, Expr.isCall]

theorem toOption_refuse {α : Type} : (refuse source e : Except Problem α).toOption = none := rfl

theorem plainValue_moved : ∀ e : Expr,
    (plainValue source' (e.moved f)).toOption = (plainValue source e).toOption
  | .string _ _ | .number _ _ | .boolean _ _ => rfl
  | .identifier span name => by
    rw [Expr.moved, plainValue, plainValue]
    split <;> rfl
  | .negation span operand => by
    cases operand <;> simp only [Expr.moved, plainValue, toOption_refuse]
  | .group span inner => by
    rw [Expr.moved, plainValue, plainValue]
    exact plainValue_moved inner
  | .ascription span inner types => by
    rw [Expr.moved, plainValue, plainValue]
    exact plainValue_moved inner
  | .template _ _ | .object _ _ | .array _ _ | .function _ _ | .markup _ _ | .call _ _ _ _
  | .property _ _ | .element _ _ _ | .chain _ _ | .instantiation _ _ _ | .nonNull _ _
  | .prefixed _ _ | .logical _ _ _ _ | .assignment _ _ _ _ | .other _ _ => by
    simp only [Expr.moved, plainValue, toOption_refuse]

theorem literalValue_moved : ∀ e : Expr, Retold f source source' e →
    (literalValue source' (e.moved f)).toOption = (literalValue source e).toOption
  | .group span inner, retold => by
    rw [Expr.moved, literalValue, literalValue]
    exact literalValue_moved inner (retold.part (List.mem_singleton_self inner))
  | .markup span parts, retold | .function span parts, retold | .object span parts, retold
  | .template span parts, retold | .property span parts, retold => by
    have text : source'.textOf (f span) = source.textOf span := retold.self
    simp only [Expr.moved, literalValue, snippet, text]
  | .string _ _, _ | .number _ _, _ | .boolean _ _, _ | .identifier _ _, _ | .negation _ _, _
  | .ascription _ _ _, _ | .array _ _, _ | .call _ _ _ _, _ | .element _ _ _, _ | .chain _ _, _
  | .instantiation _ _ _, _ | .nonNull _ _, _ | .prefixed _ _, _ | .logical _ _ _ _, _
  | .assignment _ _ _ _, _ | .other _ _, _ => plainValue_moved _

theorem keyText_moved (key : Key) :
    (keyText source' (key.moved f)).toOption = (keyText source key).toOption := by
  cases key with
  | name span text => rfl
  | expression e => cases e <;> rfl

/-! Arguments. -/

theorem getElem?_movedItems : ∀ (arguments : List Item) (index : Nat),
    (movedItems f arguments)[index]? = arguments[index]?.map (Item.moved f)
  | [], _ => rfl
  | _ :: _, 0 => rfl
  | _ :: rest, index + 1 => getElem?_movedItems rest index

theorem stringArgument_moved (span' : Span) (arguments : List Item) (index : Nat)
    (complaint : Complaint) :
    (stringArgument source' span' (movedItems f arguments) index complaint).toOption =
      (stringArgument source span arguments index complaint).toOption := by
  rw [stringArgument, stringArgument, getElem?_movedItems]
  cases arguments[index]? with
  | none => rfl
  | some item =>
    cases item with
    | value e => cases e <;> rfl
    | _ => rfl

theorem layerItems_moved (array array' : Span) : ∀ items : List Item,
    (layerItems source' array' (movedItems f items)).toOption =
      (layerItems source array items).toOption
  | [] => rfl
  | .value e :: rest => by
    cases e with
    | string span layer =>
      rw [movedItems, Item.moved, Expr.moved, layerItems, layerItems]
      split
      case isTrue => rfl
      case isFalse =>
        simp only [toOption_bind, layerItems_moved array array' rest]
    | _ => rfl
  | .spread _ _ :: _ => rfl
  | .hole _ :: _ => rfl

theorem childLayers_moved (span' : Span) (arguments : List Item) :
    (childLayers source' span' (movedItems f arguments)).toOption =
      (childLayers source span arguments).toOption := by
  cases arguments with
  | nil => rfl
  | cons item rest =>
    cases item with
    | value e =>
      cases e with
      | array array items =>
        cases items with
        | nil => rfl
        | cons item items => exact layerItems_moved array (f array) (item :: items)
      | _ => rfl
    | _ => rfl

theorem checkBoolean_moved {span' : Span} (values : ValueMapping) :
    (checkBoolean source' span' values).toOption = (checkBoolean source span values).toOption := by
  unfold checkBoolean
  split <;> rfl

theorem checkEnum_moved {span' : Span} (values : ValueMapping) :
    (checkEnum source' span' values).toOption = (checkEnum source span values).toOption := by
  unfold checkEnum
  split <;> rfl

theorem helpersOnly_moved : ∀ (values : ValueMapping) (members : List Member),
    (helpersOnly source' values (movedMembers f members)).toOption =
      (helpersOnly source values members).toOption
  | (key, .helper helper) :: values, member :: members => by
    rw [movedMembers, helpersOnly, helpersOnly]
    simp only [toOption_bind, helpersOnly_moved values members]
  | (_, .literal _) :: _, _ :: _ => rfl
  | [], members => by cases members <;> rfl
  | _ :: _, [] => by simp only [movedMembers, helpersOnly]

/-! Values. -/

theorem valueOf_moved_of_helper (retold : Retold f source source' e)
    (helper : (helperOf source' (e.moved f)).toOption = (helperOf source e).toOption) :
    (valueOf source' (e.moved f)).toOption = (valueOf source e).toOption := by
  rw [valueOf, valueOf, isCall_moved]
  split
  case isTrue => rw [toOption_map, toOption_map, helper]
  case isFalse => rw [toOption_map, toOption_map, literalValue_moved e retold]

mutual

theorem helperOf_moved : ∀ e : Expr, Retold f source source' e →
    (helperOf source' (e.moved f)).toOption = (helperOf source e).toOption
  | .call span callee types arguments, retold => by
    have told : ∀ p ∈ arguments.flatMap Item.parts, Retold f source source' p :=
      fun p inside => retold.part (List.mem_append_right _ inside)
    have text : source'.textOf (f span) = source.textOf span := retold.self
    rw [Expr.moved, helperOf.eq_def, helperOf.eq_def source]
    dsimp only
    rw [text]
    cases HelperKind.ofCall? (source.textOf span) with
    | none => rfl
    | some kind =>
      cases kind with
      | string | swap | textContent =>
        simp only [toOption_bind, propertyArgument]
        rw [stringArgument_moved]
      | children =>
        rw [toOption_bind, toOption_bind, childLayers_moved]
      | className =>
        cases arguments with
        | nil => rfl
        | cons item rest =>
          cases item with
          | value e =>
            cases e with
            | array array items =>
              have array_ : Retold f source source' (.array array items) :=
                told _ (by simp [Item.parts])
              simp only [movedItems, Item.moved, Expr.moved, toOption_bind]
              rw [partsOf_moved items fun p inside => array_.part inside]
            | _ => rfl
          | _ => rfl
      | boolean | enum | nestedProps =>
        simp only [toOption_bind, propertyArgument]
        rw [stringArgument_moved]
        refine congrArg _ (funext fun name => ?_)
        match arguments with
        | [] | [_] | _ :: .spread _ _ :: _ | _ :: .hole _ :: _ => rfl
        | item :: .value e :: rest =>
          cases e with
          | object object members =>
            have object_ : Retold f source source' (.object object members) :=
              told _ (by simp [Item.parts])
            simp only [movedItems, Item.moved, Expr.moved, toOption_bind]
            rw [valuesOf_moved members [] fun p inside => object_.part inside]
            refine congrArg _ (funext fun values => ?_)
            have booleans : (checkBoolean source' (f object) values).toOption =
                (checkBoolean source object values).toOption := checkBoolean_moved values
            have enums : (checkEnum source' (f object) values).toOption =
                (checkEnum source object values).toOption := checkEnum_moved values
            have props : (helpersOnly source' values (movedMembers f members)).toOption =
                (helpersOnly source values members).toOption := helpersOnly_moved values members
            simp only [booleans, enums, props]
          | _ => rfl
  | .identifier _ _, _ | .string _ _, _ | .number _ _, _ | .boolean _ _, _ | .template _ _, _
  | .object _ _, _ | .array _ _, _ | .function _ _, _ | .markup _ _, _ | .property _ _, _
  | .element _ _ _, _ | .chain _ _, _ | .instantiation _ _ _, _ | .nonNull _ _, _
  | .negation _ _, _ | .prefixed _ _, _ | .logical _ _ _ _, _ | .ascription _ _ _, _
  | .assignment _ _ _ _, _ | .group _ _, _ | .other _ _, _ => rfl

theorem valuesOf_moved : ∀ (members : List Member) (before : ValueMapping),
    (∀ p ∈ members.flatMap Member.parts, Retold f source source' p) →
      (valuesOf source' before (movedMembers f members)).toOption =
        (valuesOf source before members).toOption
  | [], before, _ => rfl
  | .spread _ _ :: _, _, _ => rfl
  | .initialized _ _ _ :: _, _, _ => rfl
  | .field span key computed e :: rest, before, told => by
    have retold : Retold f source source' e := told e (by simp [Member.parts])
    have valued : (valueOf source' (e.moved f)).toOption = (valueOf source e).toOption :=
      valueOf_moved_of_helper retold (helperOf_moved e retold)
    rw [movedMembers, Member.moved, valuesOf_field, valuesOf_field, toOption_bind, toOption_bind,
      keyText_moved]
    refine congrArg _ (funext fun name => ?_)
    rw [toOption_bind, toOption_bind, valued]
    refine congrArg _ (funext fun value => ?_)
    split
    case isTrue => rfl
    case isFalse =>
      exact valuesOf_moved rest _ fun p inside => told p (List.mem_append_right _ inside)

theorem partsOf_moved : ∀ items : List Item,
    (∀ p ∈ items.flatMap Item.parts, Retold f source source' p) →
      (partsOf source' (movedItems f items)).toOption = (partsOf source items).toOption
  | [], _ => rfl
  | .value e :: rest, told => by
    have later : (partsOf source' (movedItems f rest)).toOption = (partsOf source rest).toOption :=
      partsOf_moved rest fun p inside => told p (List.mem_append_right _ inside)
    by_cases isString : ∃ span text, e = .string span text
    case pos =>
      obtain ⟨span, text, rfl⟩ := isString
      rw [movedItems, Item.moved, Expr.moved, partsOf, partsOf, toOption_bind, toOption_bind, later]
    case neg =>
      have retold : Retold f source source' e := told e (by simp [Item.parts])
      have noString (span : Span) (text : String) : e ≠ .string span text :=
        fun same => isString ⟨span, text, same⟩
      have noString' (span : Span) (text : String) : e.moved f ≠ .string span text := by
        intro same
        cases e <;> cases same
        exact noString _ _ rfl
      rw [movedItems, Item.moved, partsOf_value source' _ noString',
        partsOf_value source rest noString, isCall_moved, toOption_bind, toOption_bind]
      split
      case isTrue =>
        simp only [toOption_map, toOption_bind, helperOf_moved e retold, later]
      case isFalse =>
        simp only [toOption_bind, later]
  | .spread _ _ :: rest, told | .hole _ :: rest, told => by
    rw [movedItems, Item.moved, partsOf.eq_def, partsOf.eq_def source]
    exact partsOf_moved rest fun p inside => told p (List.mem_append_right _ inside)

end

theorem valueOf_moved (retold : Retold f source source' e) :
    (valueOf source' (e.moved f)).toOption = (valueOf source e).toOption :=
  valueOf_moved_of_helper retold (helperOf_moved e retold)

end Declaration

end DesignLink
