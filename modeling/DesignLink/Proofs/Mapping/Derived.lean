import DesignLink.Proofs.Declaration.Declared
import DesignLink.Proofs.Declaration.Helpers
import DesignLink.Proofs.Mapping.Definitions

/-!
Derived mappings are mappings that a declaration can give: they take over no code and no numbers.
-/

namespace DesignLink

open Declaration

/-! Values of variants. -/

def AreStrings (values : List (String × Value)) : Prop :=
  ∀ entry ∈ values, ∃ text, entry.2 = .literal (.string text)

theorem valuesDeclarable_of_areStrings : ∀ {values : List (String × Value)}, AreStrings values →
    ValuesDeclarable values
  | [], _ => by
    rw [ValuesDeclarable]
    trivial
  | (key, value) :: rest, areStrings => by
    obtain ⟨text, same⟩ := areStrings (key, value) List.mem_cons_self
    obtain rfl : value = .literal (.string text) := same
    rw [ValuesDeclarable]
    exact valuesDeclarable_of_areStrings fun entry member =>
      areStrings entry (List.mem_cons_of_mem _ member)

/-- Every literal is a string. -/
def AreTexts (literals : List Literal) : Prop := ∀ literal ∈ literals, ∃ text, literal = .string text

theorem areTexts_nil : AreTexts [] := fun _ member => absurd member List.not_mem_nil

theorem areTexts_of_areStrings : ∀ {values : List (String × Value)}, AreStrings values →
    AreTexts (literalsOfValues values)
  | [], _ => by
    rw [literalsOfValues]
    exact areTexts_nil
  | (key, value) :: rest, areStrings => by
    obtain ⟨text, same⟩ := areStrings (key, value) List.mem_cons_self
    obtain rfl : value = .literal (.string text) := same
    have later := areTexts_of_areStrings fun entry member =>
      areStrings entry (List.mem_cons_of_mem (key, _) member)
    rw [literalsOfValues]
    intro literal member
    rcases List.mem_cons.mp member with rfl | among
    · exact ⟨text, rfl⟩
    · exact later literal among

/-! Helpers of definitions. -/

theorem Defines.isDeclarable {property : String} {definition : Json} {helper : Helper}
    (defines : Defines property definition helper) :
    helper.IsDeclarable ∧ AreTexts helper.literals := by
  cases defines with
  | variant values _ some_ keys named =>
    have areStrings : AreStrings values := fun entry member => ⟨_, named entry member⟩
    have distinct : DistinctKeys values := by
      rw [DistinctKeys, keys]
      exact nodup_eraseDups _
    rw [Helper.IsDeclarable, Helper.literals]
    exact ⟨⟨mt (eq_nil_iff_of_keys keys).mp some_, distinct,
      valuesDeclarable_of_areStrings areStrings⟩, areTexts_of_areStrings areStrings⟩
  | _ =>
    rw [Helper.IsDeclarable, Helper.literals]
    exact ⟨trivial, areTexts_nil⟩

/-! Mappings of definitions. -/

theorem propsDeclarable_of_each : ∀ {props : List (String × Helper)},
    (∀ entry ∈ props, entry.2.IsDeclarable) → PropsDeclarable props
  | [], _ => by
    rw [PropsDeclarable]
    trivial
  | (key, helper) :: rest, each => by
    rw [PropsDeclarable]
    exact ⟨each (key, helper) List.mem_cons_self,
      propsDeclarable_of_each fun entry member => each entry (List.mem_cons_of_mem _ member)⟩

theorem areTexts_of_each : ∀ {props : List (String × Helper)},
    (∀ entry ∈ props, AreTexts entry.2.literals) → AreTexts (literalsOfProps props)
  | [], _ => by
    rw [literalsOfProps]
    exact areTexts_nil
  | (key, helper) :: rest, each => by
    rw [literalsOfProps]
    intro literal member
    rcases List.mem_append.mp member with first | later
    · exact each (key, helper) List.mem_cons_self literal first
    · exact areTexts_of_each (fun entry member => each entry (List.mem_cons_of_mem _ member))
        literal later

/-- A mapping that a declaration can give and that takes over nothing but texts. -/
structure IsPlain (props : PropMapping) : Prop where
  isDeclarable : props.IsDeclarable
  areTexts : AreTexts props.literals

/-- Every mapping that is derived from definitions is plain, as the helpers of definitions are. -/
theorem isPlain_derivedProps (c : Component) : IsPlain c.derivedProps := by
  have collects := collects_derivedProps c
  have each : ∀ entry ∈ c.derivedProps,
      entry.2.IsDeclarable ∧ AreTexts entry.2.literals := by
    intro entry member
    obtain ⟨_, _, -, defines⟩ := (collects.entries entry.1 entry.2).mp member
    exact defines.isDeclarable
  have distinct : DistinctKeys c.derivedProps := by
    rw [DistinctKeys, collects.names]
    exact nodup_eraseDups _
  exact {
    isDeclarable := ⟨distinct, propsDeclarable_of_each fun entry member => (each entry member).1⟩
    areTexts := areTexts_of_each fun entry member => (each entry member).2 }

theorem IsPlain.allFinite {props : PropMapping} (isPlain : IsPlain props) :
    AllFinite props.literals = true := by
  rw [AllFinite, List.all_eq_true]
  intro literal member
  obtain ⟨text, rfl⟩ := isPlain.areTexts literal member
  rfl

theorem IsPlain.snippetsStandAlone {props : PropMapping} (isPlain : IsPlain props) :
    SnippetsStandAlone props.literals := by
  intro s member
  obtain ⟨text, same⟩ := isPlain.areTexts _ member
  cases same

end DesignLink
