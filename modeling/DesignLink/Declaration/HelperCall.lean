import DesignLink.Declaration.Values
import DesignLink.Dictionary
import DesignLink.Script.Module

/-!
Helper calls and the mappings around them, read from parsed code.
-/

namespace DesignLink.Declaration

open Script

/-- The span to point at for an argument: its own, or that of the call if it is missing. -/
def spanOfArgument (span : Span) (arguments : List Item) (index : Nat) : Span :=
  match arguments[index]? with
  | some item => item.span
  | none => span

def stringArgument (source : Source) (span : Span) (arguments : List Item) (index : Nat)
    (complaint : Complaint) : Except Problem String :=
  match arguments[index]? with
  | some (.value (.string _ value)) => .ok value
  | _ => source.complain complaint (spanOfArgument span arguments index)

def propertyArgument (source : Source) (span : Span) (arguments : List Item)
    (kind : HelperKind) : Except Problem String :=
  stringArgument source span arguments 0 (.propertyExpected kind)

def keyText (source : Source) (key : Key) : Except Problem String :=
  match key with
  | .name _ text => .ok text
  | .expression (.string _ value) => .ok value
  | .expression (.number _ value) => .ok value.format
  | key => source.complain .keyExpected key.span

/-- The layers of an array, none of which may hold a wildcard. -/
def layerItems (source : Source) (array : Span) : List Item → Except Problem (List String)
  | [] => .ok []
  | .value (.string _ layer) :: rest => do
    if layer.toList.contains '*' then source.complain .wildcardInArray array
    let layers ← layerItems source array rest
    return layer :: layers
  | item :: _ => source.complain .childExpected item.span

def childLayers (source : Source) (span : Span) (arguments : List Item) :
    Except Problem (List String) :=
  match arguments.head? with
  | some (.value (.string _ layer)) => .ok [layer]
  | some (.value (.array array (item :: items))) => layerItems source array (item :: items)
  | _ => source.complain .childrenExpected (spanOfArgument span arguments 0)

/-- The values of a boolean have no other keys than `true` and `false`. -/
def checkBoolean (source : Source) (span : Span) (values : ValueMapping) :
    Except Problem ValueMapping :=
  match values.find? fun entry => entry.1 ≠ "true" ∧ entry.1 ≠ "false" with
  | some (key, _) => source.complain (.booleanKey key) span
  | none => .ok values

/-- The values of an enumeration are not empty. -/
def checkEnum (source : Source) (span : Span) (values : ValueMapping) :
    Except Problem ValueMapping :=
  if values.isEmpty then source.complain .enumEmpty span else .ok values

def helpersOnly (source : Source) : ValueMapping → List Member → Except Problem PropMapping
  | (key, .helper helper) :: values, _ :: members => do
    let props ← helpersOnly source values members
    return (key, helper) :: props
  | (key, .literal _) :: _, member :: _ =>
    source.complain (.propWithoutHelper key) member.span
  | _, _ => .ok []

mutual

def helperOf (source : Source) : Expr → Except Problem Helper
  | .call span _ _ arguments =>
    match HelperKind.ofCall? (source.textOf span) with
    | none => source.complain (.unknownHelper (source.textOf span)) span
    | some .boolean => do
      let property ← propertyArgument source span arguments .boolean
      match arguments with
      | _ :: .value (.object object members) :: _ =>
        let values ← valuesOf source [] members
        let values ← checkBoolean source object values
        return .boolean property (some values)
      | _ :: item :: _ => source.complain .booleanValuesExpected item.span
      | _ => return .boolean property none
    | some .enum => do
      let property ← propertyArgument source span arguments .enum
      match arguments with
      | _ :: .value (.object object members) :: _ =>
        let values ← valuesOf source [] members
        let values ← checkEnum source object values
        return .enum property values
      | _ => source.complain .enumValuesExpected (spanOfArgument span arguments 1)
    | some .string => do return .string (← propertyArgument source span arguments .string)
    | some .swap => do return .swap (← propertyArgument source span arguments .swap)
    | some .children => do return .children (← childLayers source span arguments)
    | some .nestedProps => do
      let layer ← stringArgument source span arguments 0 .layerExpected
      match arguments with
      | _ :: .value (.object _ members) :: _ =>
        let values ← valuesOf source [] members
        return .nestedProps layer (← helpersOnly source values members)
      | _ => source.complain .innerPropsExpected (spanOfArgument span arguments 1)
    | some .className =>
      match arguments with
      | .value (.array _ items) :: _ => do return .className (← partsOf source items)
      | _ => source.complain .classNameExpected (spanOfArgument span arguments 0)
    | some .textContent => do
      return .textContent (← stringArgument source span arguments 0 .textLayerExpected)
  | e => source.complain .helperExpected e.span

/-- The entries of an object literal behind those that were read before: the value of a call is a
helper, that of anything else a literal. -/
def valuesOf (source : Source) (before : ValueMapping) :
    List Member → Except Problem ValueMapping
  | [] => .ok before
  | .spread span _ :: _ => source.complain .spread span
  | .initialized span _ _ :: _ => source.complain .keyExpected span
  | .field span key _ value :: rest => do
    let key ← keyText source key
    let value : Value ←
      if value.isCall then (helperOf source value).map .helper
      else (literalValue source value).map .literal
    if Dictionary.contains before key then source.complain (.duplicateKey key) span
    valuesOf source (before ++ [(key, value)]) rest

/-- The parts of a class name: strings and calls, other items are left out. -/
def partsOf (source : Source) : List Item → Except Problem (List ClassPart)
  | [] => .ok []
  | .value (.string _ text) :: rest => do
    let parts ← partsOf source rest
    return .literal text :: parts
  | .value e :: rest => do
    let parts ← if e.isCall then (helperOf source e).map fun helper => [.helper helper] else .ok []
    let others ← partsOf source rest
    return parts ++ others
  | _ :: rest => partsOf source rest

end

/-- The entries of an object literal. -/
def mappingOf (source : Source) (members : List Member) : Except Problem ValueMapping :=
  valuesOf source [] members

/-- The entries of an object literal whose values must be helper calls. -/
def propsOf (source : Source) (members : List Member) : Except Problem PropMapping := do
  let values ← mappingOf source members
  helpersOnly source values members

/-- A text as it is read: in parentheses that do not count for places. -/
def wrapped (file text : String) : Source := ⟨file, '(' :: text.toList ++ [')'], 1⟩

/-- The only expression of a text in parentheses. -/
def soleExpression [Diagnoses] (file text : String) : Except Problem (Source × Expr) :=
  let source := wrapped file text
  match Module.read? source.text with
  | none => .error source.refused
  | some ⟨[.expression _ (.group _ inner)]⟩ => .ok (source, inner)
  | some ⟨[.expression _ e]⟩ => .ok (source, e)
  | some _ => .error (.found .malformed "Expected a single expression" file ⟨1, 1⟩ none)

/-- Reads the text of an object literal of props. -/
def readProps [Diagnoses] (file text : String) : Except Problem PropMapping := do
  let (source, e) ← soleExpression file text
  match e with
  | .object _ members => propsOf source members
  | e => source.complain .propsExpected e.span

def readHelper [Diagnoses] (file text : String) : Except Problem Helper := do
  let (source, e) ← soleExpression file text
  helperOf source e

end DesignLink.Declaration
