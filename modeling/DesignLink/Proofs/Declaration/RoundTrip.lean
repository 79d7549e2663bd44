import DesignLink.Proofs.Declaration.Helpers
import DesignLink.Proofs.Script.Modules

/-!
Declarations read back: the written form of a mapping is an object literal that is read as the
mapping, whatever it is indented by.
-/

namespace DesignLink

theorem Helper.print_eq_printCall (helper : Helper) :
    ∃ arguments, helper.print = printCall helper.kind arguments := by
  cases helper with
  | boolean property values =>
    cases values with
    | none => exact ⟨_, by rw [Helper.print]; rfl⟩
    | some values => exact ⟨_, by rw [Helper.print]; rfl⟩
  | children layers =>
    by_cases one : ∃ layer, layers = [layer]
    case pos =>
      obtain ⟨layer, rfl⟩ := one
      exact ⟨_, by rw [Helper.print]; rfl⟩
    case neg =>
      refine ⟨[printArray (layers.map Text.quoted)], ?_⟩
      rw [Helper.print]
      · rfl
      · intro layer same
        exact one ⟨layer, same⟩
  | _ => exact ⟨_, by rw [Helper.print]; rfl⟩

namespace Declaration

open Script

theorem noPattern_print (helper : Helper) : NoPattern helper.print.toList := by
  obtain ⟨arguments, print⟩ := helper.print_eq_printCall
  have isName : Text.isIdentifier helper.kind.word = true := by
    cases helper.kind <;> decide
  have noPattern := noPattern_path (by decide : Text.isIdentifier "figma" = true) isName
    ('(' :: Parser.joined [' '] [')'] (arguments.map String.toList))
  rw [print, toList_printCall, callText, argumentsText, pathText, membersText, membersText]
  simpa using noPattern

theorem flatMap_line (pad closing : List Char) : ∀ {entries : List (List Char)}, entries ≠ [] →
    entries.flatMap (fun entry => pad ++ (entry ++ [',', '\n'])) ++ closing =
      pad ++ Parser.joined ('\n' :: pad) (',' :: '\n' :: closing) entries
  | [entry], _ => by simp [Parser.joined]
  | entry :: other :: entries, _ => by
    have later := flatMap_line pad closing (List.cons_ne_nil other entries)
    have shape : Parser.joined ('\n' :: pad) (',' :: '\n' :: closing)
        (entry :: other :: entries) = entry ++ ',' :: ('\n' :: pad ++
          Parser.joined ('\n' :: pad) (',' :: '\n' :: closing) (other :: entries)) := rfl
    rw [List.flatMap_cons, List.append_assoc, later, shape]
    simp

def entryGap (indent : Nat) : List Char := '\n' :: List.replicate (indent + 2) ' '

/-- What stands behind the last entry of an indented mapping. -/
def entriesTail (indent : Nat) : List Char :=
  ',' :: ('\n' :: List.replicate indent ' ' ++ ['\x7d'])

theorem isGap_spaces (count : Nat) : IsGap ('\n' :: List.replicate count ' ') := by
  intro c member
  rcases List.mem_cons.mp member with rfl | blank
  · exact .inr rfl
  · exact .inl (List.eq_of_mem_replicate blank)

theorem toList_print (indent : Nat) {props : PropMapping} (nonempty : props ≠ []) :
    (props.print indent).toList = '\x7b' :: (entryGap indent ++
      Parser.joined (entryGap indent) (entriesTail indent)
        (props.map fun entry => (printEntry entry.1 entry.2.print).toList)) := by
  have some_ : props.isEmpty = false := List.isEmpty_eq_false_iff.mpr nonempty
  have printed : props.map (fun entry => (printEntry entry.1 entry.2.print).toList) ≠ [] := by
    simpa using nonempty
  have lines := flatMap_line (List.replicate (indent + 2) ' ')
    (List.replicate indent ' ' ++ ['\x7d']) printed
  rw [PropMapping.print, some_, if_neg Bool.false_ne_true, printProps_eq_map]
  rw [entryGap, entriesTail, List.cons_append, List.cons_append, ← lines]
  simp [String.toList_join, List.flatMap_map, spaces]

/-- What is read for the written form of a mapping. -/
def ReadsProps (props : PropMapping) (source : Source) (e : Expr) : Prop :=
  ∃ span members, e = .object span members ∧ (propsOf source members).toOption =
    if AllFinite props.literals then some props else none

theorem propsOf_of_reads {props : PropMapping} (distinct : DistinctKeys props) {source : Source}
    {members : List Member}
    (reads : List.Forall₂ (ReadsEntry source) members (propValues props)) :
    (propsOf source members).toOption = if AllFinite props.literals then some props else none := by
  have keys : Dictionary.keys (propValues props) = Dictionary.keys props := by
    rw [Dictionary.keys, propValues, List.map_map]
    rfl
  have distinct' : DistinctKeys ([] ++ propValues props) := by
    rw [List.nil_append, DistinctKeys, keys]
    exact distinct
  have values := valuesOf_of_reads reads [] distinct'
  have length : members.length = props.length := by
    rw [reads.length_eq, propValues, List.length_map]
  rw [literalsOfValues_propValues] at values
  rw [propsOf, mappingOf, toOption_bind, values, PropMapping.literals]
  split
  case isTrue =>
    rw [List.nil_append, Option.bind_some, helpersOnly_propValues source props members length]
    rfl
  case isFalse => rfl

theorem toList_print_nil (indent : Nat) : (PropMapping.print indent []).toList = ['\x7b', '\x7d'] := by
  rw [PropMapping.print, List.isEmpty_nil, if_pos rfl]
  decide

theorem reads_print {props : PropMapping} (declarable : props.IsDeclarable)
    (standAlone : SnippetsStandAlone props.literals) (indent : Nat) :
    Reads (props.print indent).toList (ReadsProps props) := by
  by_cases empty : props = []
  case pos =>
    subst empty
    have finite : AllFinite (PropMapping.literals []) = true := by
      rw [PropMapping.literals, literalsOfProps]
      rfl
    rw [toList_print_nil]
    apply (reads_emptyObject isGap_nil).imp
    rintro source _ ⟨span, rfl⟩
    exact ⟨span, [], rfl, by rw [if_pos finite]; rfl⟩
  case neg =>
    have each := reads_props props declarable.2 standAlone
    have newline : (entryGap indent).contains '\n' = true := by simp [entryGap]
    have nonempty : propValues props ≠ [] := by simpa [propValues] using empty
    have object := reads_object (isGap_spaces (indent + 2))
      (listTail_commaBrace (isGap_spaces indent)) (Nat.succ_pos _)
      (fun entry : String × Value => (printEntry entry.1 entry.2.print).toList) ReadsEntry
      nonempty (by
        intro entry member depth enough
        rw [toList_printEntry] at enough ⊢
        exact Reads.member (readsKey_declared entry.1) (each entry member) _ (by
          rw [List.length_append, List.length_cons, List.length_cons] at enough
          omega))
    rw [propValues, List.map_map] at object
    rw [toList_print indent empty]
    apply object.imp
    rintro source e ⟨span, members, rfl, read⟩
    exact ⟨span, members, rfl, propsOf_of_reads declarable.1 read⟩

theorem noArrow_print {props : PropMapping} (declarable : props.IsDeclarable)
    (standAlone : SnippetsStandAlone props.literals) (indent : Nat) :
    NoArrow (props.print indent).toList := by
  by_cases empty : props = []
  case pos =>
    subst empty
    rw [toList_print_nil]
    exact noArrow_empty
  case neg =>
    have each := reads_props props declarable.2 standAlone
    have members := noArrow_of_members (isGap_spaces (indent + 2))
      (listTail_commaBrace (isGap_spaces indent)).closes
      (fun entry : String × Helper => (declaredKey entry.1).toList)
      (fun entry => entry.2.print.toList) (fun entry _ => readsKey_declared entry.1)
      (fun entry member => each (entry.1, .helper entry.2) (List.mem_map.mpr ⟨entry, member, rfl⟩))
      (fun entry _ => noPattern_print entry.2) empty
    simp only [toList_print indent empty, toList_printEntry]
    exact members

theorem soleExpression_of_group [Diagnoses] {file text : String} {span span' : Span} {e : Expr}
    (read : Module.read? (wrapped file text).text =
      some ⟨[.expression span (.group span' e)]⟩) :
    soleExpression file text = .ok (wrapped file text, e) := by
  unfold soleExpression
  extract_lets source
  rw [show Module.read? source.text = _ from read]

/-- A value that no arrow function starts with is the only expression of its text. -/
theorem soleExpression_of_reads [Diagnoses] (file : String) {text : String} {Q : Source → Expr → Prop}
    (reads : Reads text.toList Q) (noArrow : NoArrow text.toList) :
    ∃ e, Q (wrapped file text) e ∧
      soleExpression file text = .ok (wrapped file text, e) := by
  obtain ⟨span, span', e, read, meaning⟩ := read?_of_group reads noArrow
  exact ⟨e, meaning (wrapped file text) rfl, soleExpression_of_group read⟩

theorem readProps_toOption [Diagnoses] {props : PropMapping} (declarable : props.IsDeclarable)
    (standAlone : SnippetsStandAlone props.literals) (file : String) (indent : Nat) :
    (readProps file (props.print indent)).toOption =
      if AllFinite props.literals then some props else none := by
  obtain ⟨e, ⟨span, members, rfl, value⟩, sole⟩ := soleExpression_of_reads file
    (reads_print declarable standAlone indent) (noArrow_print declarable standAlone indent)
  rw [readProps, sole]
  exact value

theorem isDeclarable_of_readProps [Diagnoses] {file code : String} {props : PropMapping}
    (read : readProps file code = .ok props) : props.IsDeclarable := by
  obtain ⟨⟨source, e⟩, -, rest⟩ := exists_of_bind read
  cases e with
  | object span members => exact isDeclarable_of_propsOf rest
  | _ => cases rest

/-- A mapping with a captured name and a number. -/
def themedProps : PropMapping :=
  [("theme", .enum "Theme" [
    ("Dark", .literal (.snippet ⟨.identifier, "Theme.dark"⟩)),
    ("None", .literal (.number (.zero false)))])]

end Declaration

end DesignLink
