import DesignLink.Dictionary
import DesignLink.Mapping.Printer

/-!
Mappings as declarations hold them: which literals stand in a mapping, which of them have a written
form that is a literal again, and which mappings a declaration can give.
-/

namespace DesignLink

def Literal.isFinite : Literal → Bool
  | .number value => value.isFinite
  | _ => true

def Value.print : Value → String
  | .helper inner => inner.print
  | .literal inner => inner.print

def ClassPart.print : ClassPart → String
  | .literal text => Text.quoted text
  | .helper inner => inner.print

mutual

def Helper.literals : Helper → List Literal
  | .boolean _ (some values) => literalsOfValues values
  | .enum _ values => literalsOfValues values
  | .nestedProps _ props => literalsOfProps props
  | .className parts => literalsOfParts parts
  | .boolean _ none | .string _ | .swap _ | .children _ | .textContent _ => []

def literalsOfValues : List (String × Value) → List Literal
  | [] => []
  | (_, .helper helper) :: rest => helper.literals ++ literalsOfValues rest
  | (_, .literal literal) :: rest => literal :: literalsOfValues rest

def literalsOfProps : List (String × Helper) → List Literal
  | [] => []
  | (_, helper) :: rest => helper.literals ++ literalsOfProps rest

def literalsOfParts : List ClassPart → List Literal
  | [] => []
  | .literal _ :: rest => literalsOfParts rest
  | .helper helper :: rest => helper.literals ++ literalsOfParts rest

end

def Value.literals : Value → List Literal
  | .helper inner => inner.literals
  | .literal inner => [inner]

theorem literalsOfValues_cons (key : String) (value : Value) (rest : List (String × Value)) :
    literalsOfValues ((key, value) :: rest) = value.literals ++ literalsOfValues rest := by
  cases value <;> rw [literalsOfValues, Value.literals]
  rfl

/-- All literals have a written form that is a literal again. -/
def AllFinite (literals : List Literal) : Bool := literals.all Literal.isFinite

theorem allFinite_append (front back : List Literal) :
    AllFinite (front ++ back) = (AllFinite front && AllFinite back) := List.all_append

def propValues (props : List (String × Helper)) : List (String × Value) :=
  props.map fun entry => (entry.1, .helper entry.2)

theorem literalsOfValues_propValues : ∀ props : List (String × Helper),
    literalsOfValues (propValues props) = literalsOfProps props
  | [] => by rw [propValues, List.map_nil, literalsOfValues, literalsOfProps]
  | (_, _) :: rest => by
    have later := literalsOfValues_propValues rest
    rw [propValues] at later
    rw [propValues, List.map_cons, literalsOfValues, literalsOfProps, later]

def DistinctKeys {α : Type} (entries : List (String × α)) : Prop :=
  (Dictionary.keys entries).Nodup

def LayersDeclarable (layers : List String) : Prop :=
  (∃ layer, layers = [layer]) ∨
    layers ≠ [] ∧ ∀ layer ∈ layers, layer.toList.contains '*' = false

mutual

def Helper.IsDeclarable : Helper → Prop
  | .boolean _ (some values) =>
    (∀ key ∈ Dictionary.keys values, key = "true" ∨ key = "false") ∧ DistinctKeys values ∧
      ValuesDeclarable values
  | .enum _ values => values ≠ [] ∧ DistinctKeys values ∧ ValuesDeclarable values
  | .children layers => LayersDeclarable layers
  | .nestedProps _ props => DistinctKeys props ∧ PropsDeclarable props
  | .className parts => PartsDeclarable parts
  | .boolean _ none | .string _ | .swap _ | .textContent _ => True

def ValuesDeclarable : List (String × Value) → Prop
  | [] => True
  | (_, .helper helper) :: rest => helper.IsDeclarable ∧ ValuesDeclarable rest
  | (_, .literal _) :: rest => ValuesDeclarable rest

def PropsDeclarable : List (String × Helper) → Prop
  | [] => True
  | (_, helper) :: rest => helper.IsDeclarable ∧ PropsDeclarable rest

def PartsDeclarable : List ClassPart → Prop
  | [] => True
  | .literal _ :: rest => PartsDeclarable rest
  | .helper helper :: rest => helper.IsDeclarable ∧ PartsDeclarable rest

end

namespace PropMapping

def IsDeclarable (props : PropMapping) : Prop := DistinctKeys props ∧ PropsDeclarable props

def literals (props : PropMapping) : List Literal := literalsOfProps props

end PropMapping

/-! The written forms of lists are those of their parts. -/

theorem printValues_eq_map : ∀ values : List (String × Value),
    printValues values = values.map fun entry => printEntry entry.1 entry.2.print
  | [] => by rw [printValues, List.map_nil]
  | (_, .helper _) :: rest => by
    rw [printValues, List.map_cons, printValues_eq_map rest]
    rfl
  | (_, .literal _) :: rest => by
    rw [printValues, List.map_cons, printValues_eq_map rest]
    rfl

theorem printProps_eq_map : ∀ props : List (String × Helper),
    printProps props = props.map fun entry => printEntry entry.1 entry.2.print
  | [] => by rw [printProps, List.map_nil]
  | (_, _) :: rest => by rw [printProps, List.map_cons, printProps_eq_map rest]

theorem printValues_propValues (props : List (String × Helper)) :
    printValues (propValues props) = printProps props := by
  rw [printValues_eq_map, printProps_eq_map, propValues, List.map_map]
  rfl

theorem printParts_eq_map : ∀ parts : List ClassPart,
    printParts parts = parts.map ClassPart.print
  | [] => by rw [printParts, List.map_nil]
  | .literal _ :: rest => by
    rw [printParts, List.map_cons, printParts_eq_map rest]
    rfl
  | .helper _ :: rest => by
    rw [printParts, List.map_cons, printParts_eq_map rest]
    rfl

end DesignLink
