import DesignLink.Proofs.Mapping.Lossless
import DesignLink.Proofs.Wire.StableChoices

/-!
Mappings that are read again: whatever document a helper was read of, its written form is read as the
same helper.
-/

namespace DesignLink

open Wire

/-! Literals. -/

namespace Literal

variable {mode : Mode} {doc : Doc} {literal : Literal}

theorem exists_of_read (ok : read mode doc = .ok literal) : Reader.settle mode doc = .ok () ∧
    ((∃ s, Snippet.read .settled doc = .ok s ∧ literal = .snippet s) ∨
      (∃ value, literal = .boolean value) ∨
      (∃ value, Reader.number .settled doc = .ok value ∧ literal = .number value) ∨
      (∃ text, literal = .string text) ∨ literal = .undefined) := by
  obtain ⟨settled, found⟩ := firstOf_eq_ok_iff.mp ok
  refine ⟨settled, ?_⟩
  obtain ⟨reader, member, taken⟩ := List.exists_of_findSome?_eq_some found
  have taken := toOption_eq_some.mp taken
  simp only [List.mem_cons, List.not_mem_nil, or_false] at member
  rcases member with rfl | rfl | rfl | rfl | rfl
  · exact .inl (exists_of_map taken)
  · obtain ⟨value, -, rfl⟩ := exists_of_map taken
    exact .inr (.inl ⟨value, rfl⟩)
  · exact .inr (.inr (.inl (exists_of_map taken)))
  · obtain ⟨text, -, rfl⟩ := exists_of_map taken
    exact .inr (.inr (.inr (.inl ⟨text, rfl⟩)))
  · unfold readUndefined at taken
    split at taken
    case h_1 =>
      cases taken
      exact .inr (.inr (.inr (.inr rfl)))
    case h_2 => exact absurd taken (mismatch_ne_ok _ _ _)

theorem isFinite_of_number {value : Number} (inRange : doc.InRange)
    (ok : Reader.number mode doc = .ok value) : value.isFinite = true := by
  unfold Reader.number at ok
  split at ok
  case h_1 =>
    cases ok
    exact inRange _ rfl
  case h_2 =>
    cases ok
    obtain ⟨least, less⟩ := inRange _ rfl
    exact Number.isFinite_ofInt least less
  case h_3 => exact absurd ok (mismatch_ne_ok _ _ _)

theorem stable : Stable read toJson 0 := by
  intro doc inRange mode literal bound ok room _
  obtain ⟨settled, shape⟩ := exists_of_read ok
  have inside : doc.depth ≤ bound := Nat.le_trans (Reader.depth_le_of_settle settled) room
  have shallow : literal.toJson.depth ≤ bound := by
    rcases shape with ⟨s, found, rfl⟩ | ⟨_, rfl⟩ | ⟨_, _, rfl⟩ | ⟨_, rfl⟩ | rfl
    · obtain ⟨_, _, _, _, -, -, -, deeper⟩ := Tagged.exists_of_adjacent found
      have container : 1 ≤ doc.depth := Nat.le_trans (Nat.le_add_left 1 _) deeper
      exact Nat.le_trans container inside
    all_goals exact Nat.zero_le _
  have received (survives : literal.toJson.Survives) : literal.received = some literal := by
    rw [received_iff]
    rintro value rfl
    have finite : value.isFinite = true := by
      rcases shape with ⟨_, _, same⟩ | ⟨_, same⟩ | ⟨_, found, same⟩ | ⟨_, same⟩ | same <;> cases same
      exact isFinite_of_number inRange found
    exact ⟨finite, survives value (List.mem_singleton.mpr rfl) finite⟩
  refine ⟨shallow, fun survives => isSound_literal (by rw [received survives]; rfl),
    fun survives mode allows => ?_⟩
  have reads := readsAs_literal (match mode with | .stream limit => limit | .settled => bound) literal
  rw [received survives] at reads
  have back := reads mode (Mode.allows_of_le allows (Nat.zero_le _)) (by
    cases mode with
    | stream limit => exact Nat.le_refl limit
    | settled => exact shallow)
  dsimp only at back
  rw [if_pos allows] at back
  exact toOption_eq_some.mp back

end Literal

/-! Helpers, given that the helpers inside are read again. -/

section Around

variable {read : Reader Helper}

def RefusesLiterals (read : Reader Helper) : Prop :=
  ∀ literal : Literal, (read .settled (scanned literal.toJson)).toOption = none

theorem stable_value (inside : Stable read Helper.toJson 0) (refuses : RefusesLiterals read) :
    Stable (Value.readAround read) Value.toJson 0 := by
  intro doc inRange
  have helpers : StableAt (fun mode doc => (read mode doc).map Value.helper) Value.toJson 0 doc :=
    (inside doc inRange).map fun _ => rfl
  have literals : StableAt (fun mode doc => (Literal.read mode doc).map Value.literal)
      Value.toJson 0 doc :=
    (Literal.stable doc inRange).map fun _ => rfl
  refine stableAt_firstOf helpers literals (fun value ok => ?_) _
  obtain ⟨literal, -, rfl⟩ := exists_of_map ok
  rw [toOption_map, Value.toJson, refuses]
  rfl

theorem stable_part (inside : Stable read Helper.toJson 0) :
    Stable (ClassPart.readAround read) ClassPart.toJson 0 := by
  intro doc inRange
  have texts : StableAt (fun mode doc => (Reader.text mode doc).map ClassPart.literal)
      ClassPart.toJson 0 doc :=
    (stable_text doc inRange).map fun _ => rfl
  have helpers : StableAt (fun mode doc => (read mode doc).map ClassPart.helper)
      ClassPart.toJson 0 doc :=
    (inside doc inRange).map fun _ => rfl
  refine stableAt_firstOf texts helpers (fun part ok => ?_) _
  obtain ⟨helper, -, rfl⟩ := exists_of_map ok
  obtain ⟨kind, arguments, shape⟩ := exists_taggedArguments helper
  rw [toOption_map, ClassPart.toJson, shape]
  rfl

theorem stable_values (inside : Stable read Helper.toJson 0) (refuses : RefusesLiterals read) :
    Stable (Reader.dictionary (Value.readAround read))
      (fun values => .object (valueMembers values)) 0 := by
  have members : (fun values : List (String × Value) => Json.object (valueMembers values)) =
      fun values => .object (values.map fun entry => (entry.1, entry.2.toJson)) := by
    funext values
    rw [valueMembers_eq_map]
  rw [members]
  exact stable_dictionary (stable_value inside refuses) (Nat.zero_le _)

theorem stable_props (inside : Stable read Helper.toJson 0) :
    Stable (Reader.dictionary read) (fun props => .object (propMembers props)) 0 := by
  have members : (fun props : List (String × Helper) => Json.object (propMembers props)) =
      fun props => .object (props.map fun entry => (entry.1, entry.2.toJson)) := by
    funext props
    rw [propMembers_eq_map]
  rw [members]
  exact stable_dictionary inside (Nat.zero_le _)

theorem stable_parts (inside : Stable read Helper.toJson 0) :
    Stable (Reader.list (ClassPart.readAround read)) (fun parts => .list (partItems parts)) 0 := by
  have items : (fun parts : List ClassPart => Json.list (partItems parts)) =
      fun parts => .list (parts.map ClassPart.toJson) := by
    funext parts
    rw [partItems_eq_map]
  rw [items]
  exact stable_list (stable_part inside) (Nat.zero_le _)

end Around

namespace Helper

def argumentMembers (helper : Helper) : List (String × Json) :=
  match helper.toJson with
  | .object [_, (_, .object arguments)] => arguments
  | _ => []

theorem toJson_eq (helper : Helper) :
    helper.toJson = toJson.taggedArguments helper.kind helper.argumentMembers := by
  cases helper with
  | boolean property values => cases values <;> rfl
  | _ => rfl

section Kinds

variable {read : Reader Helper}

theorem kind_of_argumentReader {kind : HelperKind} {mode : Mode} {doc : Doc} {helper : Helper}
    (ok : argumentReader read kind mode doc = .ok helper) : helper.kind = kind := by
  cases kind <;> obtain ⟨found, -, rfl⟩ := (Record.read_map_iff _ _ _ _ _ _).mp ok <;> rfl

theorem stable_property :
    property.Stable (fun name => [("figmaPropName", .string name)]) 0 :=
  Record.stable_required stable_text "figmaPropName"

theorem stable_arguments (inside : Stable read toJson 0) (refuses : RefusesLiterals read)
    (kind : HelperKind) :
    Stable (argumentReader read kind) (fun helper => .object helper.argumentMembers) 0 := by
  have values := stable_values inside refuses
  have apart : ∀ key ∈ ["figmaPropName"], key ∉ ["valueMapping"] := by decide
  have layers : Stable (Reader.list Reader.text) (fun texts => .list (texts.map .string)) 0 :=
    stable_list stable_text (Nat.zero_le _)
  cases kind with
  | boolean =>
    have fields := stable_property.both
      (Record.stable_optional values "valueMapping" fun _ => nofun) apart
    refine Record.Stable.read (fields.map fun (name, values) => ?_) "BooleanArgs" (Nat.zero_le _)
    cases values <;> rfl
  | enum =>
    have fields := stable_property.both (Record.stable_required values "valueMapping") apart
    exact Record.Stable.read (fields.map fun _ => rfl) "EnumArgs" (Nat.zero_le _)
  | string => exact (stable_property.map fun _ => rfl).read "PropNameArgs" (Nat.zero_le _)
  | swap => exact (stable_property.map fun _ => rfl).read "PropNameArgs" (Nat.zero_le _)
  | children =>
    have field := Record.stable_required layers "layers"
    exact Record.Stable.read (field.map fun _ => rfl) "ChildrenArgs" (Nat.zero_le _)
  | nestedProps =>
    have apart : ∀ key ∈ ["layer"], key ∉ ["props"] := by decide
    have fields := (Record.stable_required stable_text "layer").both
      (Record.stable_required (stable_props inside) "props") apart
    exact Record.Stable.read (fields.map fun _ => rfl) "NestedPropsArgs" (Nat.zero_le _)
  | className =>
    have field := Record.stable_required (stable_parts inside) "className"
    exact Record.Stable.read (field.map fun _ => rfl) "ClassNameArgs" (Nat.zero_le _)
  | textContent =>
    have field := Record.stable_required stable_text "layer"
    exact Record.Stable.read (field.map fun _ => rfl) "TextContentArgs" (Nat.zero_le _)

end Kinds

theorem stable_readNested : ∀ n, Stable (readNested n) toJson 0
  | 0 => fun _ _ _ _ _ ok => nomatch ok
  | n + 1 => by
    intro doc inRange mode helper bound ok room _
    obtain ⟨tag, read, inner, part, known, reads, inside, deeper⟩ := Tagged.exists_of_adjacent ok
    obtain ⟨kind, -, same⟩ := List.mem_map.mp (mem_of_get? known)
    cases same
    have arguments := stable_arguments (stable_readNested n) (helper_of_literal n) kind
    have shallow := Nat.le_trans deeper room
    obtain ⟨bound, rfl⟩ := Nat.exists_eq_succ_of_ne_zero (Nat.ne_of_gt (Nat.le_trans
      (Nat.le_add_left 1 _) shallow))
    have kept := arguments part (inside inRange) inner helper bound reads
      (Nat.le_of_succ_le_succ shallow) (Nat.zero_le _)
    have same := kind_of_argumentReader reads
    have found : Dictionary.get? (HelperKind.all.map fun kind =>
        (kind.tag, argumentReader (readNested n) kind)) kind.tag =
        some (argumentReader (readNested n) kind) := by
      cases kind <;> rfl
    have different : (⟨"kind", "args"⟩ : Tagged.Keys).content ≠ "kind" := by decide
    rw [toJson_eq, same]
    exact kept.adjacent "Intrinsic" different found

theorem stable : Stable read toJson 0 := stable_readNested Mode.depthLimit

end Helper

theorem ValueMapping.stable : Stable read toJson 0 :=
  stable_values Helper.stable (helper_of_literal Mode.depthLimit)

theorem PropMapping.stable : Stable read toJson 0 := stable_props Helper.stable

end DesignLink
