import DesignLink.Proofs.Mapping.Received

/-!
Mappings that are read back from their own documents: what numbers and what nesting come through.
-/

namespace DesignLink

open Wire

/-! What is received is what was written. -/

theorem map_eq_iff {α β : Type} {f : α → β} (injective : ∀ a a', f a = f a' → a = a')
    (result : Option α) (a : α) : result.map f = some (f a) ↔ result = some a := by
  rw [Option.map_eq_some_iff]
  constructor
  · rintro ⟨a', rfl, same⟩
    rw [injective a' a same]
  · rintro rfl
    exact ⟨a, rfl, rfl⟩

theorem cons_eq_iff {α β : Type} {f : α → β} (injective : ∀ a a', f a = f a' → a = a')
    (first : Option α) (others : Option (List β)) (a : α) (rest : List β) :
    (first.bind fun a => others.map (List.cons (f a))) = some (f a :: rest) ↔
      first = some a ∧ others = some rest := by
  cases first with
  | none => simp
  | some a' =>
    rw [Option.bind_some, Option.map_eq_some_iff]
    constructor
    · rintro ⟨rest', rfl, same⟩
      obtain ⟨head, rfl⟩ := List.cons.inj same
      rw [injective a' a head]
      exact ⟨rfl, rfl⟩
    · rintro ⟨⟨⟩, rfl⟩
      exact ⟨rest, rfl, rfl⟩

mutual

theorem received_helper_iff : ∀ helper : Helper, helper.received = some helper ↔
    ∀ literal ∈ helper.literals, literal.received = some literal
  | .boolean _ none => by simp [Helper.received, Helper.literals]
  | .boolean property (some values) => by
    have inside := received_values_iff values
    rw [Helper.received, Helper.literals, ← inside]
    exact map_eq_iff (fun _ _ same => by cases same; rfl) _ values
  | .enum property values => by
    have inside := received_values_iff values
    rw [Helper.received, Helper.literals, ← inside]
    exact map_eq_iff (fun _ _ same => by cases same; rfl) _ values
  | .string _ => by simp [Helper.received, Helper.literals]
  | .swap _ => by simp [Helper.received, Helper.literals]
  | .children _ => by simp [Helper.received, Helper.literals]
  | .nestedProps layer props => by
    have inside := received_props_iff props
    rw [Helper.received, Helper.literals, ← inside]
    exact map_eq_iff (fun _ _ same => by cases same; rfl) _ props
  | .className parts => by
    have inside := received_parts_iff parts
    rw [Helper.received, Helper.literals, ← inside]
    exact map_eq_iff (fun _ _ same => by cases same; rfl) _ parts
  | .textContent _ => by simp [Helper.received, Helper.literals]

theorem received_values_iff : ∀ values : List (String × Value),
    receivedValues values = some values ↔
      ∀ literal ∈ literalsOfValues values, literal.received = some literal
  | [] => by simp [receivedValues, literalsOfValues]
  | (key, .helper helper) :: rest => by
    have first := received_helper_iff helper
    have others := received_values_iff rest
    rw [receivedValues, literalsOfValues, List.forall_mem_append, ← first, ← others]
    exact cons_eq_iff (fun _ _ same => by cases same; rfl) _ _ helper rest
  | (key, .literal literal) :: rest => by
    have others := received_values_iff rest
    rw [receivedValues, literalsOfValues, List.forall_mem_cons, ← others]
    exact cons_eq_iff (fun _ _ same => by cases same; rfl) _ _ literal rest

theorem received_props_iff : ∀ props : List (String × Helper),
    receivedProps props = some props ↔
      ∀ literal ∈ literalsOfProps props, literal.received = some literal
  | [] => by simp [receivedProps, literalsOfProps]
  | (key, helper) :: rest => by
    have first := received_helper_iff helper
    have others := received_props_iff rest
    rw [receivedProps, literalsOfProps, List.forall_mem_append, ← first, ← others]
    exact cons_eq_iff (fun _ _ same => by cases same; rfl) _ _ helper rest

theorem received_parts_iff : ∀ parts : List ClassPart,
    receivedParts parts = some parts ↔
      ∀ literal ∈ literalsOfParts parts, literal.received = some literal
  | [] => by simp [receivedParts, literalsOfParts]
  | .literal text :: rest => by
    have others := received_parts_iff rest
    rw [receivedParts, literalsOfParts, ← others]
    exact map_eq_iff (fun _ _ same => by cases same; rfl) _ rest
  | .helper helper :: rest => by
    have first := received_helper_iff helper
    have others := received_parts_iff rest
    rw [receivedParts, literalsOfParts, List.forall_mem_append, ← first, ← others]
    exact cons_eq_iff (fun _ _ same => by cases same; rfl) _ _ helper rest

end

theorem Literal.received_iff (literal : Literal) : literal.received = some literal ↔
    ∀ value, literal = .number value → value.isFinite = true ∧ value.ReadsBack := by
  cases literal with
  | number value =>
    have read : (∀ value', Literal.number value = .number value' →
        value'.isFinite = true ∧ value'.ReadsBack) ↔
          value.isFinite = true ∧ value.received? = some value := by
      rw [← value.readsBack_iff]
      exact ⟨fun all => all value rfl, fun both _ same => by cases same; exact both⟩
    rw [read, received]
    by_cases finite : value.isFinite = true
    · rw [if_pos finite, map_eq_iff fun _ _ same => by cases same; rfl]
      exact ⟨fun back => ⟨finite, back⟩, fun both => both.2⟩
    · rw [if_neg finite]
      exact ⟨(fun same => by cases same), fun both => absurd both.1 finite⟩
  | snippet s => simp [received]
  | boolean value => simp [received]
  | string text => simp [received]
  | undefined => simp [received]

namespace PropMapping

theorem toOption_read_compact {props : PropMapping} (distinct : props.HasDistinctKeys) :
    (Reader.ofWholeText PropMapping.read props.toJson.compact).toOption =
      if props.toJson.depth < Mode.depthLimit then receivedProps props else none := by
  rw [Reader.ofWholeText_compact]
  have reads := readsAs_props distinct.1 (readsAs_eachProp distinct.2 Mode.depthLimit)
  exact reads (.stream Mode.depthLimit) (by decide : 0 < 128) (Nat.le_refl _)

/-- A mapping is read back from its document exactly if each of its numbers is finite and is read
back from its own text, and the document is not too deep. -/
theorem read_compact_iff {props : PropMapping} (distinct : props.HasDistinctKeys) :
    Reader.ofWholeText PropMapping.read props.toJson.compact = .ok props ↔
      (∀ value, .number value ∈ props.literals → value.isFinite = true ∧ value.ReadsBack) ∧
        props.toJson.depth ≤ 127 := by
  have numbers : receivedProps props = some props ↔
      ∀ value, .number value ∈ props.literals → value.isFinite = true ∧ value.ReadsBack := by
    rw [received_props_iff]
    constructor
    · intro all value member
      exact (Literal.received_iff _).mp (all _ member) value rfl
    · intro all literal member
      rw [Literal.received_iff]
      rintro value rfl
      exact all value member
  rw [← toOption_eq_some, toOption_read_compact distinct, ← numbers]
  by_cases shallow : props.toJson.depth < Mode.depthLimit
  · rw [if_pos shallow]
    exact ⟨fun same => ⟨same, Nat.le_of_lt_succ shallow⟩, fun both => both.1⟩
  · rw [if_neg shallow]
    exact ⟨(fun same => nomatch same), fun both => absurd (Nat.lt_succ_of_le both.2) shallow⟩

/-- A mapping to a number that is given by its digits, beside a helper and `undefined`. -/
def weightProps (digits : Nat) (exponent : Int) : PropMapping :=
  [("weight", .enum "Weight" [("S", .literal (.number (.ofDecimal false digits exponent))),
    ("M", .helper (.textContent "Label")), ("L", .literal .undefined)])]

theorem weightProps_distinct (digits : Nat) (exponent : Int) :
    (weightProps digits exponent).HasDistinctKeys := by
  simp [weightProps, HasDistinctKeys, PropsDistinct, Helper.HasDistinctKeys, ValuesDistinct,
    DistinctKeys, Dictionary.keys]

theorem mem_literals_weightProps (digits : Nat) (exponent : Int) (value : Number) :
    .number value ∈ (weightProps digits exponent).literals ↔
      value = .ofDecimal false digits exponent := by
  simp [weightProps, literals, literalsOfProps, Helper.literals, literalsOfValues]

theorem read_compact_half : (weightProps 5 (-1)).HasDistinctKeys ∧
    Reader.ofWholeText PropMapping.read (weightProps 5 (-1)).toJson.compact =
      .ok (weightProps 5 (-1)) := by
  have distinct := weightProps_distinct 5 (-1)
  refine ⟨distinct, (read_compact_iff distinct).mpr ⟨fun value member => ?_, by decide⟩⟩
  rw [mem_literals_weightProps] at member
  rw [member, Number.readsBack_iff]
  decide +kernel

/-- Being finite is not enough for a number: `1e-23` is read as `1.0000000000000001e-23`. -/
theorem read_compact_not_of_finite : ¬∀ props : PropMapping, props.HasDistinctKeys →
    (Reader.ofWholeText PropMapping.read props.toJson.compact = .ok props ↔
      (∀ value, .number value ∈ props.literals → value.isFinite = true) ∧
        props.toJson.depth ≤ 127) := by
  intro all
  have distinct := weightProps_distinct 1 (-23)
  have finite : ∀ value, .number value ∈ (weightProps 1 (-23)).literals →
      value.isFinite = true := by
    intro value member
    rw [mem_literals_weightProps] at member
    rw [member]
    decide +kernel
  have read := (all _ distinct).mpr ⟨finite, by decide⟩
  have other : (Number.ofDecimal false 1 (-23)).received? ≠
      some (Number.ofDecimal false 1 (-23)) := by
    decide +kernel
  rw [← toOption_eq_some, toOption_read_compact distinct, if_pos (by decide),
    received_props_iff] at read
  have same := read _ ((mem_literals_weightProps 1 (-23) _).mpr rfl)
  have back := (Literal.received_iff _).mp same _ rfl
  rw [Number.readsBack_iff] at back
  exact other back.2

end PropMapping

end DesignLink
