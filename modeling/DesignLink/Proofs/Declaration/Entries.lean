import DesignLink.Proofs.Declaration.Helpers

/-!
Object literals as they are read: each member gives the entry in its place, under the text of its
key. Props are read exactly if every value is a call of a helper; a literal among them is pointed at
in the member that gives it.
-/

namespace DesignLink

open Script

/-- The text that a key stands for: its name, or the value of its string or number. -/
inductive Script.Key.Names : Key → String → Prop where
  | name (span : Span) (text : String) : Names (.name span text) text
  | string (span : Span) (text : String) : Names (.expression (.string span text)) text
  | number (span : Span) (value : Number) : Names (.expression (.number span value)) value.format

namespace Declaration

variable {source : Source}

theorem keyText_eq_ok_iff {key : Key} {text : String} :
    keyText source key = .ok text ↔ key.Names text := by
  constructor
  · intro ok
    unfold keyText at ok
    split at ok <;> cases ok <;> constructor
  · rintro (_ | _ | _) <;> rfl

def Gives (source : Source) (member : Member) (entry : String × Value) : Prop :=
  ∃ span key computed e, member = .field span key computed e ∧ key.Names entry.1 ∧
    valueOf source e = .ok entry.2

def GivesHelper (source : Source) (member : Member) (entry : String × Helper) : Prop :=
  ∃ span key computed e, member = .field span key computed e ∧ key.Names entry.1 ∧
    e.isCall = true ∧ helperOf source e = .ok entry.2

def GivesLiteral (source : Source) (member : Member) (entry : String × Literal) : Prop :=
  ∃ span key computed e, member = .field span key computed e ∧ key.Names entry.1 ∧
    e.isCall = false ∧ literalValue source e = .ok entry.2

theorem valueOf_eq_helper_iff {e : Expr} {helper : Helper} :
    valueOf source e = .ok (.helper helper) ↔ e.isCall = true ∧ helperOf source e = .ok helper := by
  rw [valueOf]
  cases e.isCall with
  | true => cases helperOf source e <;> simp [Except.map]
  | false => cases literalValue source e <;> simp [Except.map]

theorem valueOf_eq_literal_iff {e : Expr} {literal : Literal} :
    valueOf source e = .ok (.literal literal) ↔
      e.isCall = false ∧ literalValue source e = .ok literal := by
  rw [valueOf]
  cases e.isCall with
  | true => cases helperOf source e <;> simp [Except.map]
  | false => cases literalValue source e <;> simp [Except.map]

theorem gives_helper_iff {member : Member} {key : String} {helper : Helper} :
    Gives source member (key, .helper helper) ↔ GivesHelper source member (key, helper) := by
  simp only [Gives, GivesHelper, valueOf_eq_helper_iff]

theorem gives_literal_iff {member : Member} {key : String} {literal : Literal} :
    Gives source member (key, .literal literal) ↔ GivesLiteral source member (key, literal) := by
  simp only [Gives, GivesLiteral, valueOf_eq_literal_iff]

/-! Values. -/

theorem distinctKeys_front {α : Type} {front back : List (String × α)}
    (distinct : DistinctKeys (front ++ back)) : DistinctKeys front := by
  rw [DistinctKeys, Dictionary.keys, List.map_append] at distinct
  exact (List.nodup_append.mp distinct).1

/-- The entries behind those that were read before are what the members give, under new keys. -/
theorem valuesOf_eq_ok_iff : ∀ {members : List Member} {before values : ValueMapping},
    DistinctKeys before → (valuesOf source before members = .ok values ↔ ∃ later,
      values = before ++ later ∧ List.Forall₂ (Gives source) members later ∧
        DistinctKeys (before ++ later))
  | [], before, values, distinct => by
    rw [valuesOf, Except.ok.injEq]
    constructor
    · rintro rfl
      exact ⟨[], (List.append_nil _).symm, .nil, by rwa [List.append_nil]⟩
    · rintro ⟨later, rfl, none_, -⟩
      cases none_
      exact (List.append_nil _).symm
  | .spread span e :: members, before, values, _ => by
    rw [valuesOf]
    constructor
    · rintro ⟨⟩
    · rintro ⟨later, -, given, -⟩
      cases given with
      | cons first rest => obtain ⟨_, _, _, _, ⟨⟩, -⟩ := first
  | .initialized span name e :: members, before, values, _ => by
    rw [valuesOf]
    constructor
    · rintro ⟨⟩
    · rintro ⟨later, -, given, -⟩
      cases given with
      | cons first rest => obtain ⟨_, _, _, _, ⟨⟩, -⟩ := first
  | .field span key computed e :: members, before, values, distinct => by
    rw [valuesOf_field]
    constructor
    · intro ok
      obtain ⟨name, named, valued⟩ := exists_of_bind ok
      obtain ⟨value, given, rest⟩ := exists_of_bind valued
      split at rest
      case isTrue => cases rest
      case isFalse absent =>
        have absent' : Dictionary.contains before name = false := Bool.eq_false_iff.mpr absent
        obtain ⟨later, rfl, gives, distinct'⟩ :=
          (valuesOf_eq_ok_iff (distinctKeys_concat value distinct absent')).mp rest
        rw [List.append_assoc] at distinct' ⊢
        exact ⟨(name, value) :: later, rfl,
          .cons ⟨span, key, computed, e, rfl, keyText_eq_ok_iff.mp named, given⟩ gives, distinct'⟩
    · rintro ⟨later, rfl, gives, distinct'⟩
      cases gives with
      | @cons _ entry _ later first rest =>
        obtain ⟨_, _, _, _, same, names, given⟩ := first
        cases same
        obtain ⟨name, value⟩ := entry
        have absent : Dictionary.contains before name = false := contains_eq_false distinct'
        have shape : before ++ (name, value) :: later = before ++ [(name, value)] ++ later := by
          rw [List.append_assoc]
          rfl
        rw [keyText_eq_ok_iff.mpr names, ok_bind, given, ok_bind, absent,
          if_neg Bool.false_ne_true, shape]
        rw [shape] at distinct'
        exact (valuesOf_eq_ok_iff (distinctKeys_front distinct')).mpr ⟨later, rfl, rest, distinct'⟩

/-- A value mapping is read exactly if each member gives an entry, with pairwise different keys. -/
theorem mappingOf_eq_ok_iff {members : List Member} {values : ValueMapping} :
    mappingOf source members = .ok values ↔
      List.Forall₂ (Gives source) members values ∧ DistinctKeys values := by
  have none_ : DistinctKeys ([] : ValueMapping) := List.nodup_nil
  rw [mappingOf, valuesOf_eq_ok_iff none_]
  constructor
  · rintro ⟨later, rfl, gives, distinct⟩
    exact ⟨gives, distinct⟩
  · rintro ⟨gives, distinct⟩
    exact ⟨values, rfl, gives, distinct⟩

/-! Props. -/

theorem helpersOnly_eq_ok_iff : ∀ {values : ValueMapping} {members : List Member}
    {props : PropMapping}, members.length = values.length →
      (helpersOnly source values members = .ok props ↔ values = propValues props)
  | [], [], props, _ => by
    rw [helpersOnly.eq_def, Except.ok.injEq]
    constructor
    · rintro rfl
      rfl
    · intro none_
      exact (List.map_eq_nil_iff.mp none_.symm).symm
  | (key, .literal literal) :: values, member :: members, props, _ => by
    rw [helpersOnly]
    constructor
    · rintro ⟨⟩
    · intro same
      cases props with
      | nil => cases same
      | cons prop props => cases same
  | (key, .helper helper) :: values, member :: members, props, length => by
    rw [helpersOnly]
    constructor
    · intro ok
      obtain ⟨later, rest, same⟩ := exists_of_bind ok
      cases same
      rw [(helpersOnly_eq_ok_iff (Nat.succ.inj length)).mp rest]
      rfl
    · intro same
      cases props with
      | nil => cases same
      | cons prop props =>
        obtain ⟨first, rest⟩ := List.cons.inj same
        cases first
        rw [(helpersOnly_eq_ok_iff (Nat.succ.inj length)).mpr rest]
        rfl

theorem forall₂_givesHelper_iff {members : List Member} {props : PropMapping} :
    List.Forall₂ (GivesHelper source) members props ↔
      List.Forall₂ (Gives source) members (propValues props) := by
  rw [propValues, List.forall₂_map_right_iff]
  exact ⟨.imp fun _ _ => gives_helper_iff.mpr, .imp fun _ _ => gives_helper_iff.mp⟩

theorem helpersOnly_of_literal {name : String} {literal : Literal} {later : ValueMapping}
    {member : Member} {back : List Member} :
    ∀ {props : PropMapping} {front : List Member}, front.length = props.length →
      helpersOnly source (propValues props ++ (name, .literal literal) :: later)
        (front ++ member :: back) = source.complain (.propWithoutHelper name) member.span
  | [], [], _ => rfl
  | (key, helper) :: props, first :: front, length => by
    have rest : helpersOnly source (propValues props ++ (name, .literal literal) :: later)
        (front ++ member :: back) = source.complain (.propWithoutHelper name) member.span :=
      helpersOnly_of_literal (Nat.succ.inj length)
    rw [propValues] at rest
    rw [propValues, List.map_cons, List.cons_append, List.cons_append, helpersOnly, rest]
    rfl

/-- An object literal is read as props exactly if each of its members gives a helper, under pairwise
different keys, and then these are the props. Where members give literals too, the first of them is
pointed at. -/
theorem propsOf_reads (source : Source) (members : List Member) :
    (∀ props, propsOf source members = .ok props ↔
      List.Forall₂ (GivesHelper source) members props ∧ DistinctKeys props) ∧
    ∀ front member back props name literal later, members = front ++ member :: back →
      List.Forall₂ (GivesHelper source) front props →
      GivesLiteral source member (name, literal) →
      List.Forall₂ (Gives source) back later →
      DistinctKeys (propValues props ++ (name, .literal literal) :: later) →
        propsOf source members = .error (source.problem .invalidArgument
          ("Prop '" ++ name ++ "' must be mapped with a figma.* helper call") member.span) := by
  constructor
  · intro props
    rw [forall₂_givesHelper_iff, DistinctKeys, ← keys_propValues]
    constructor
    · intro ok
      obtain ⟨values, read, helpers⟩ := exists_of_bind ok
      obtain ⟨gives, distinct⟩ := mappingOf_eq_ok_iff.mp read
      rw [helpersOnly_eq_ok_iff gives.length_eq] at helpers
      subst helpers
      exact ⟨gives, distinct⟩
    · rintro ⟨gives, distinct⟩
      have read := mappingOf_eq_ok_iff.mpr ⟨gives, distinct⟩
      rw [propsOf, read, ok_bind]
      exact (helpersOnly_eq_ok_iff gives.length_eq).mpr rfl
  · rintro front member back props name literal later rfl helpers first rest distinct
    have gives : List.Forall₂ (Gives source) (front ++ member :: back)
        (propValues props ++ (name, .literal literal) :: later) :=
      List.rel_append (forall₂_givesHelper_iff.mp helpers)
        (.cons (gives_literal_iff.mpr first) rest)
    have read := mappingOf_eq_ok_iff.mpr ⟨gives, distinct⟩
    rw [propsOf, read, ok_bind, helpersOnly_of_literal helpers.length_eq]
    rfl

/-- A helper and, behind it, a literal. -/
def labelledText : String := "\x7b a: figma.string(\"A\"), label: \"Click\" \x7d"

def labelledHelper : Member :=
  .field ⟨3, 23⟩ (.name ⟨3, 4⟩ "a") false
    (.call ⟨6, 23⟩ (.property ⟨6, 18⟩ (.identifier ⟨6, 11⟩ "figma")) []
      [.value (.string ⟨19, 22⟩ "A")])

def labelledLiteral : Member :=
  .field ⟨25, 39⟩ (.name ⟨25, 30⟩ "label") false (.string ⟨32, 39⟩ "Click")

theorem propsOf_reads_labelled :
    propsOf (wrapped "inline.tsx" labelledText) [labelledHelper] = .ok [("a", .string "A")] ∧
    propsOf (wrapped "inline.tsx" labelledText) [labelledHelper, labelledLiteral] =
      .error (.found .invalidArgument "Prop 'label' must be mapped with a figma.* helper call"
        "inline.tsx" ⟨1, 25⟩ (some "label: \"Click\"")) := by
  have called : helperOf (wrapped "inline.tsx" labelledText)
      (.call ⟨6, 23⟩ (.property ⟨6, 18⟩ (.identifier ⟨6, 11⟩ "figma")) []
        [.value (.string ⟨19, 22⟩ "A")]) = .ok (.string "A") := by
    have kind : HelperKind.ofCall? ((wrapped "inline.tsx" labelledText).textOf ⟨6, 23⟩) =
        some .string := by decide +kernel
    rw [helperOf.eq_def]
    dsimp only
    rw [kind]
    rfl
  have helper : GivesHelper (wrapped "inline.tsx" labelledText) labelledHelper
      ("a", .string "A") := ⟨_, _, _, _, rfl, .name _ _, rfl, called⟩
  constructor
  · exact ((propsOf_reads _ _).1 _).mpr ⟨.cons helper .nil, show List.Nodup _ by decide⟩
  · exact (propsOf_reads _ _).2 [labelledHelper] labelledLiteral [] [("a", .string "A")] "label"
      (.string "Click") [] rfl (.cons helper .nil) ⟨_, _, _, _, rfl, .name _ _, rfl, rfl⟩ .nil
      (show List.Nodup _ by decide)

end Declaration

end DesignLink
