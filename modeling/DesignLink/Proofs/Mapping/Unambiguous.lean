import DesignLink.Proofs.Mapping.Selectors
import DesignLink.Proofs.Mapping.Told

/-!
Rendered code tells what it was rendered from: two mappings with the same code are the same. Each
helper is told from its start, so that what a longer text was made of is found from the front.
-/

namespace DesignLink

open Script

def Written {α : Type} (render : α → Except UnsupportedNesting String) (a : α)
    (text : List Char) : Prop := ∃ value, render a = .ok value ∧ text = value.toList

def WrittenEntry {α : Type} (render : α → Except UnsupportedNesting String) (entry : String × α)
    (text : List Char) : Prop :=
  ∃ value, render entry.2 = .ok value ∧ text = (renderEntry entry.1 value).toList

def Value.render (selector : Option String) : Value → Except UnsupportedNesting String
  | .helper inner => inner.render selector
  | .literal inner => .ok inner.render

def ClassPart.render (selector : Option String) : ClassPart → Except UnsupportedNesting String
  | .literal text => .ok (Text.quoted text)
  | .helper inner => inner.render selector

theorem renderValues_cons {selector : Option String} (key : String) (value : Value)
    (rest : List (String × Value)) :
    renderValues selector ((key, value) :: rest) = (do
      let text ← value.render selector
      let entries ← renderValues selector rest
      return renderEntry key text :: entries) := by
  cases value <;> (rw [renderValues]; rfl)

theorem renderParts_cons {selector : Option String} (part : ClassPart) (rest : List ClassPart) :
    renderParts selector (part :: rest) = (do
      let text ← part.render selector
      let texts ← renderParts selector rest
      return text :: texts) := by
  cases part <;> (rw [renderParts]; rfl)

theorem written_renderValues {selector : Option String} : ∀ {values : List (String × Value)}
    {entries : List String}, renderValues selector values = .ok entries →
      List.Forall₂ (WrittenEntry (Value.render selector)) values (entries.map String.toList)
  | [], _, ok => by
    rw [renderValues] at ok
    obtain rfl := Except.ok.inj ok
    exact .nil
  | (key, .helper helper) :: rest, _, ok => by
    rw [renderValues] at ok
    obtain ⟨value, first, others⟩ := exists_of_bind ok
    obtain ⟨entries, read, result⟩ := exists_of_bind others
    obtain rfl := Except.ok.inj result
    exact .cons ⟨value, first, rfl⟩ (written_renderValues read)
  | (key, .literal literal) :: rest, _, ok => by
    rw [renderValues] at ok
    obtain ⟨entries, read, result⟩ := exists_of_bind ok
    obtain rfl := Except.ok.inj result
    exact .cons ⟨literal.render, rfl, rfl⟩ (written_renderValues read)

theorem written_renderProps {selector : Option String} : ∀ {props : PropMapping} {entries : List String},
    renderProps selector props = .ok entries →
      List.Forall₂ (WrittenEntry (Helper.render selector)) props (entries.map String.toList)
  | [], _, ok => by
    rw [renderProps] at ok
    obtain rfl := Except.ok.inj ok
    exact .nil
  | (key, helper) :: rest, _, ok => by
    rw [renderProps] at ok
    obtain ⟨value, first, others⟩ := exists_of_bind ok
    obtain ⟨entries, read, result⟩ := exists_of_bind others
    obtain rfl := Except.ok.inj result
    exact .cons ⟨value, first, rfl⟩ (written_renderProps read)

theorem written_renderParts {selector : Option String} : ∀ {parts : List ClassPart} {texts : List String},
    renderParts selector parts = .ok texts →
      List.Forall₂ (Written (ClassPart.render selector)) parts (texts.map String.toList)
  | [], _, ok => by
    rw [renderParts] at ok
    obtain rfl := Except.ok.inj ok
    exact .nil
  | .literal part :: rest, _, ok => by
    rw [renderParts] at ok
    obtain ⟨texts, read, result⟩ := exists_of_bind ok
    obtain rfl := Except.ok.inj result
    exact .cons ⟨Text.quoted part, rfl, rfl⟩ (written_renderParts read)
  | .helper helper :: rest, _, ok => by
    rw [renderParts] at ok
    obtain ⟨part, first, others⟩ := exists_of_bind ok
    obtain ⟨texts, read, result⟩ := exists_of_bind others
    obtain rfl := Except.ok.inj result
    exact .cons ⟨part, first, rfl⟩ (written_renderParts read)

def HelperKind.opening : HelperKind → List Char
  | .className => ['[']
  | .textContent => (currentLayer ++ ".__findChildWithCriteria__(\x7b name: ").toList
  | kind => (currentLayer ++ ".__properties__." ++ kind.tag ++ "(").toList

theorem HelperKind.opening_separate (a b : HelperKind) : a.opening <+: b.opening → a = b := by
  have each : ∀ a ∈ all, ∀ b ∈ all, a.opening <+: b.opening → a = b := by decide +kernel
  exact each a (by cases a <;> decide) b (by cases b <;> decide)

/-- What stands behind the opening of a helper. -/
inductive LookUp : Helper → List Char → Prop where
  | boolean (property : String) : LookUp (.boolean property none) (quotedChars '\'' property ++ [')'])
  | mapped (property : String) {values : List (String × Value)} {texts : List (List Char)}
    (written : List.Forall₂ (WrittenEntry (Value.render currentLayer)) values texts) :
    LookUp (.boolean property (some values)) (quotedChars '\'' property ++
      (',' :: ' ' :: '\x7b' :: '\n' :: (Parser.joined ['\n'] ['\x7d'] texts ++ [')'])))
  | enum (property : String) {values : List (String × Value)} {texts : List (List Char)}
    (written : List.Forall₂ (WrittenEntry (Value.render currentLayer)) values texts) :
    LookUp (.enum property values) (quotedChars '\'' property ++
      (',' :: ' ' :: '\x7b' :: '\n' :: (Parser.joined ['\n'] ['\x7d'] texts ++ [')'])))
  | string (property : String) : LookUp (.string property) (quotedChars '\'' property ++ [')'])
  | swap (property : String) : LookUp (.swap property) (quotedChars '\'' property ++ [')'])
  | children (layers : List String) : LookUp (.children layers)
    ('[' :: (Parser.joined [] [']'] (layers.map (quotedChars '"')) ++ [')']))
  | className {parts : List ClassPart} {texts : List (List Char)}
    (written : List.Forall₂ (Written (ClassPart.render currentLayer)) parts texts) :
    LookUp (.className parts) (Parser.joined [' '] [']'] texts ++ joinText)
  | textContent (inner : String) : LookUp (.textContent inner)
    (quotedChars '\'' inner ++ ", type: \"TEXT\" \x7d).textContent".toList)

theorem exists_lookUp {helper : Helper} {text : List Char}
    (written : Written (Helper.render currentLayer) helper text) :
    ∃ behind, text = helper.kind.opening ++ behind ∧ LookUp helper behind := by
  obtain ⟨value, ok, rfl⟩ := written
  have mapped (kind : HelperKind) (property : String) (entries : List String)
      (opening : kind.opening = (currentLayer ++ ".__properties__." ++ kind.tag ++ "(").toList) :
      (renderAccess currentLayer kind
        (Text.quotedSingle property ++ ", " ++ renderObject entries)).toList =
      kind.opening ++ (quotedChars '\'' property ++ (',' :: ' ' :: '\x7b' :: '\n' ::
        (Parser.joined ['\n'] ['\x7d'] (entries.map String.toList) ++ [')']))) := by
    simp [renderAccess, opening, toList_quotedSingle, toList_renderObject]
  have single (kind : HelperKind) (property : String)
      (opening : kind.opening = (currentLayer ++ ".__properties__." ++ kind.tag ++ "(").toList) :
      (renderAccess currentLayer kind (Text.quotedSingle property)).toList =
      kind.opening ++ (quotedChars '\'' property ++ [')']) := by
    simp [renderAccess, opening, toList_quotedSingle]
  cases helper with
  | boolean property values =>
    cases values with
    | none =>
      simp only [Helper.render, layerOf_some] at ok
      obtain rfl := Except.ok.inj ok
      exact ⟨_, single .boolean property rfl, .boolean property⟩
    | some values =>
      simp only [Helper.render, layerOf_some] at ok
      obtain ⟨entries, read, result⟩ := exists_of_bind ok
      obtain rfl := Except.ok.inj result
      exact ⟨_, mapped .boolean property entries rfl, .mapped property (written_renderValues read)⟩
  | enum property values =>
    simp only [Helper.render, layerOf_some] at ok
    obtain ⟨entries, read, result⟩ := exists_of_bind ok
    obtain rfl := Except.ok.inj result
    exact ⟨_, mapped .enum property entries rfl, .enum property (written_renderValues read)⟩
  | string property =>
    simp only [Helper.render, layerOf_some] at ok
    obtain rfl := Except.ok.inj ok
    exact ⟨_, single .string property rfl, .string property⟩
  | swap property =>
    simp only [Helper.render, layerOf_some] at ok
    obtain rfl := Except.ok.inj ok
    exact ⟨_, single .swap property rfl, .swap property⟩
  | children layers =>
    simp only [Helper.render, layerOf_some] at ok
    obtain rfl := Except.ok.inj ok
    have quoted : (fun layer => (Text.quoted layer).toList) = quotedChars '"' :=
      funext toList_quoted
    have opening : (currentLayer ++ ".__properties__." ++ HelperKind.children.tag ++ "(").toList =
        HelperKind.children.opening := rfl
    refine ⟨_, ?_, .children layers⟩
    rw [renderAccess, String.toList_append, String.toList_append, opening, toList_layers, quoted,
      List.append_assoc]
    rfl
  | nestedProps inner props =>
    simp only [Helper.render, layerOf_some] at ok
    cases ok
  | className parts =>
    simp only [Helper.render, layerOf_some] at ok
    obtain ⟨texts, read, result⟩ := exists_of_bind ok
    obtain rfl := Except.ok.inj result
    exact ⟨_, toList_classNames texts, .className (written_renderParts read)⟩
  | textContent inner =>
    simp only [Helper.render, layerOf_some] at ok
    obtain rfl := Except.ok.inj ok
    exact ⟨_, by rw [String.toList_append, String.toList_append, toList_quotedSingle,
      List.append_assoc]; rfl, .textContent inner⟩

theorem helper_starts {helper : Helper} {text : List Char}
    (written : Written (Helper.render currentLayer) helper text) :
    (∃ more, text = 'f' :: 'i' :: more) ∨ ∃ more, text = '[' :: more := by
  obtain ⟨behind, rfl, -⟩ := exists_lookUp written
  have opening : (∃ more, helper.kind.opening = 'f' :: 'i' :: more) ∨
      ∃ more, helper.kind.opening = '[' :: more := by
    cases helper.kind with
    | className => exact .inr ⟨_, rfl⟩
    | _ => exact .inl ⟨_, rfl⟩
  cases opening with
  | inl name =>
    obtain ⟨more, shape⟩ := name
    exact .inl ⟨more ++ behind, by rw [shape]; rfl⟩
  | inr array =>
    obtain ⟨more, shape⟩ := array
    exact .inr ⟨more ++ behind, by rw [shape]; rfl⟩

theorem told_entry {α : Type} {render : α → Except UnsupportedNesting String} {key : String}
    {value : α} (told : Told (Written render) (FollowsItem '\x7d') value) :
    Told (WrittenEntry render) (FollowsItem '\x7d') (key, value) := by
  intro other text text' rest rest' written written' follows follows' same
  obtain ⟨first, ok, rfl⟩ := written
  obtain ⟨second, ok', rfl⟩ := written'
  rw [toList_renderEntry, toList_renderEntry, List.append_assoc, List.append_assoc] at same
  obtain ⟨sameKey, behind⟩ := quotedChars_append_inj (.inl rfl) same
  have values := (List.cons.inj (List.cons.inj behind).2).2
  obtain ⟨sameValue, after⟩ := told other.2 _ _ _ _ ⟨first, ok, rfl⟩ ⟨second, ok', rfl⟩ follows
    follows' values
  exact ⟨Prod.ext sameKey sameValue, after⟩

theorem entries_inj {α : Type} {render : α → Except UnsupportedNesting String}
    {entries others : List (String × α)}
    (each : ∀ entry ∈ entries, Told (Written render) (FollowsItem '\x7d') entry.2)
    {texts texts' : List (List Char)} {rest rest' : List Char}
    (written : List.Forall₂ (WrittenEntry render) entries texts)
    (written' : List.Forall₂ (WrittenEntry render) others texts')
    (same : Parser.joined ['\n'] ['\x7d'] texts ++ rest =
      Parser.joined ['\n'] ['\x7d'] texts' ++ rest') : entries = others ∧ rest = rest' := by
  apply joined_inj (by decide) _ (fun entry member => told_entry (each entry member)) written
    written' same
  intro entry text entryWritten
  obtain ⟨value, -, rfl⟩ := entryWritten
  exact ⟨'"', _, toList_renderEntry _ _, by decide⟩

theorem parts_inj {parts others : List ClassPart}
    (each : ∀ part ∈ parts, Told (Written (ClassPart.render currentLayer)) Anything part)
    {texts texts' : List (List Char)} {rest rest' : List Char}
    (written : List.Forall₂ (Written (ClassPart.render currentLayer)) parts texts)
    (written' : List.Forall₂ (Written (ClassPart.render currentLayer)) others texts')
    (same : Parser.joined [' '] [']'] texts ++ rest = Parser.joined [' '] [']'] texts' ++ rest') :
    parts = others ∧ rest = rest' := by
  apply joined_inj (by decide) _ (fun part member => _) written written' same
  · intro part text partWritten
    cases part with
    | literal literal =>
      obtain ⟨value, ok, rfl⟩ := partWritten
      obtain rfl := Except.ok.inj ok
      exact ⟨'"', _, toList_quoted literal, by decide⟩
    | helper helper =>
      cases helper_starts partWritten with
      | inl name =>
        obtain ⟨more, rfl⟩ := name
        exact ⟨'f', _, rfl, by decide⟩
      | inr array =>
        obtain ⟨more, rfl⟩ := array
        exact ⟨'[', _, rfl, by decide⟩
  · intro part member other text text' rest rest' partWritten otherWritten _ _ equal
    exact each part member other _ _ _ _ partWritten otherWritten trivial trivial equal

theorem layers_inj {layers others : List String} {rest rest' : List Char}
    (same : Parser.joined [] [']'] (layers.map (quotedChars '"')) ++ rest =
      Parser.joined [] [']'] (others.map (quotedChars '"')) ++ rest') :
    layers = others ∧ rest = rest' := by
  have written (names : List String) : List.Forall₂ (fun name text => text = quotedChars '"' name)
      names (names.map (quotedChars '"')) :=
    List.forall₂_map_right_iff.mpr (List.forall₂_same.mpr fun _ _ => rfl)
  apply joined_inj (by decide) _ _ (written layers) (written others) same
  · intro name text shape
    exact ⟨'"', _, shape, by decide⟩
  · intro name member other text text' after after' shape shape' _ _ equal
    subst shape
    subst shape'
    exact quotedChars_append_inj (.inl rfl) equal

def Helper.innerValues : Helper → List (String × Value)
  | .boolean _ (some values) => values
  | .enum _ values => values
  | _ => []

def Helper.innerParts : Helper → List ClassPart
  | .className parts => parts
  | _ => []

theorem property_inj {a b : String} {behind behind' rest rest' : List Char}
    (same : quotedChars '\'' a ++ behind ++ rest = quotedChars '\'' b ++ behind' ++ rest') :
    a = b ∧ behind ++ rest = behind' ++ rest' := by
  rw [List.append_assoc, List.append_assoc] at same
  exact quotedChars_append_inj (.inr rfl) same

theorem mapped_inj {a b : String} {values others : List (String × Value)}
    (each : ∀ entry ∈ values,
      Told (Written (Value.render currentLayer)) (FollowsItem '\x7d') entry.2)
    {texts texts' : List (List Char)} {rest rest' : List Char}
    (written : List.Forall₂ (WrittenEntry (Value.render currentLayer)) values texts)
    (written' : List.Forall₂ (WrittenEntry (Value.render currentLayer)) others texts')
    (same : quotedChars '\'' a ++
        (',' :: ' ' :: '\x7b' :: '\n' :: (Parser.joined ['\n'] ['\x7d'] texts ++ [')'])) ++ rest =
      quotedChars '\'' b ++
        (',' :: ' ' :: '\x7b' :: '\n' :: (Parser.joined ['\n'] ['\x7d'] texts' ++ [')'])) ++ rest') :
    a = b ∧ values = others ∧ rest = rest' := by
  obtain ⟨property, behind⟩ := property_inj same
  simp only [List.cons_append, List.cons.injEq, true_and, List.append_assoc] at behind
  obtain ⟨entries, closed⟩ := entries_inj each written written' behind
  exact ⟨property, entries, (List.cons.inj closed).2⟩

theorem told_of_inner (helper : Helper)
    (values : ∀ entry ∈ helper.innerValues,
      Told (Written (Value.render currentLayer)) (FollowsItem '\x7d') entry.2)
    (parts : ∀ part ∈ helper.innerParts,
      Told (Written (ClassPart.render currentLayer)) Anything part) :
    Told (Written (Helper.render currentLayer)) Anything helper := by
  intro other text text' rest rest' written written' _ _ same
  obtain ⟨behind, rfl, lookUp⟩ := exists_lookUp written
  obtain ⟨behind', rfl, lookUp'⟩ := exists_lookUp written'
  rw [List.append_assoc, List.append_assoc] at same
  obtain ⟨kind, looked⟩ := opening_inj HelperKind.opening_separate same
  cases lookUp with
  | boolean property =>
    cases lookUp' with
    | boolean property' =>
      obtain ⟨rfl, behind⟩ := property_inj looked
      exact ⟨rfl, (List.cons.inj behind).2⟩
    | mapped property' entries =>
      have closed := (property_inj looked).2
      simp at closed
    | _ => cases kind
  | mapped property entries =>
    cases lookUp' with
    | boolean property' =>
      have closed := (property_inj looked).2
      simp at closed
    | mapped property' entries' =>
      obtain ⟨rfl, rfl, behind⟩ := mapped_inj values entries entries' looked
      exact ⟨rfl, behind⟩
    | _ => cases kind
  | enum property entries =>
    cases lookUp' with
    | enum property' entries' =>
      obtain ⟨rfl, rfl, behind⟩ := mapped_inj values entries entries' looked
      exact ⟨rfl, behind⟩
    | _ => cases kind
  | string property =>
    cases lookUp' with
    | string property' =>
      obtain ⟨rfl, behind⟩ := property_inj looked
      exact ⟨rfl, (List.cons.inj behind).2⟩
    | _ => cases kind
  | swap property =>
    cases lookUp' with
    | swap property' =>
      obtain ⟨rfl, behind⟩ := property_inj looked
      exact ⟨rfl, (List.cons.inj behind).2⟩
    | _ => cases kind
  | children layers =>
    cases lookUp' with
    | children layers' =>
      rw [List.cons_append, List.cons_append, List.append_assoc, List.append_assoc] at looked
      obtain ⟨rfl, behind⟩ := layers_inj (List.cons.inj looked).2
      exact ⟨rfl, (List.cons.inj behind).2⟩
    | _ => cases kind
  | className texts =>
    cases lookUp' with
    | className texts' =>
      rw [List.append_assoc, List.append_assoc] at looked
      obtain ⟨rfl, behind⟩ := parts_inj parts texts texts' looked
      exact ⟨rfl, List.append_cancel_left behind⟩
    | _ => cases kind
  | textContent inner =>
    cases lookUp' with
    | textContent inner' =>
      obtain ⟨rfl, behind⟩ := property_inj looked
      exact ⟨rfl, List.append_cancel_left behind⟩
    | _ => cases kind

theorem literal_starts (l : Literal) : ∃ c more, l.render.toList = c :: more ∧ c ≠ '[' ∧
    (c = 'f' → l = .boolean false) := by
  cases bare : l.isBare with
  | true =>
    obtain ⟨c, more, shape, other, isFalse⟩ := render_starts bare
    exact ⟨c, more, shape, fun same => other (by simp [same]), isFalse⟩
  | false =>
    obtain ⟨c, more, shape, starts⟩ := quoted_starts bare
    have quote : c = '_' ∨ c = '\'' := starts.imp And.right And.right
    refine ⟨c, more, shape, ?_, ?_⟩
    · rintro rfl
      exact absurd quote (by decide)
    · rintro rfl
      exact absurd quote (by decide)

theorem literal_ne_helper {literal : Literal} {helper : Helper} {text rest rest' : List Char}
    (written : Written (Helper.render currentLayer) helper text) :
    literal.render.toList ++ rest ≠ text ++ rest' := by
  intro same
  obtain ⟨c, more, shape, noArray, isFalse⟩ := literal_starts literal
  cases helper_starts written with
  | inl name =>
    obtain ⟨more', rfl⟩ := name
    rw [shape] at same
    obtain rfl := isFalse (List.cons.inj same).1
    have word : (Literal.boolean false).render.toList = 'f' :: 'a' :: ['l', 's', 'e'] := by decide
    rw [← shape, word] at same
    exact absurd (List.cons.inj (List.cons.inj same).2).1 (by decide)
  | inr array =>
    obtain ⟨more', rfl⟩ := array
    rw [shape] at same
    exact noArray (List.cons.inj same).1

theorem told_value_of_helper {helper : Helper}
    (told : Told (Written (Helper.render currentLayer)) Anything helper) :
    Told (Written (Value.render currentLayer)) (FollowsItem '\x7d') (.helper helper) := by
  intro other text text' rest rest' written written' _ _ same
  cases other with
  | helper other =>
    obtain ⟨equal, behind⟩ := told other _ _ _ _ written written' trivial trivial same
    exact ⟨congrArg _ equal, behind⟩
  | literal literal =>
    obtain ⟨value, ok, rfl⟩ := written'
    obtain rfl := Except.ok.inj ok
    exact absurd same.symm (literal_ne_helper written)

theorem told_value_of_literal (literal : Literal) :
    Told (Written (Value.render currentLayer)) (FollowsItem '\x7d') (.literal literal) := by
  intro other text text' rest rest' written written' follows follows' same
  obtain ⟨value, ok, rfl⟩ := written
  obtain rfl := Except.ok.inj ok
  cases other with
  | helper other => exact absurd same (literal_ne_helper written')
  | literal other =>
    obtain ⟨value, ok, rfl⟩ := written'
    obtain rfl := Except.ok.inj ok
    obtain ⟨equal, behind⟩ := literal_inj follows follows' same
    exact ⟨congrArg _ equal, behind⟩

theorem quoted_ne_helper {part : String} {helper : Helper} {text rest rest' : List Char}
    (written : Written (Helper.render currentLayer) helper text) :
    quotedChars '"' part ++ rest ≠ text ++ rest' := by
  intro same
  cases helper_starts written with
  | inl name =>
    obtain ⟨more, rfl⟩ := name
    exact absurd (List.cons.inj same).1 (by decide)
  | inr array =>
    obtain ⟨more, rfl⟩ := array
    exact absurd (List.cons.inj same).1 (by decide)

theorem told_part_of_helper {helper : Helper}
    (told : Told (Written (Helper.render currentLayer)) Anything helper) :
    Told (Written (ClassPart.render currentLayer)) Anything (.helper helper) := by
  intro other text text' rest rest' written written' _ _ same
  cases other with
  | helper other =>
    obtain ⟨equal, behind⟩ := told other _ _ _ _ written written' trivial trivial same
    exact ⟨congrArg _ equal, behind⟩
  | literal part =>
    obtain ⟨value, ok, rfl⟩ := written'
    obtain rfl := Except.ok.inj ok
    rw [toList_quoted] at same
    exact absurd same.symm (quoted_ne_helper written)

theorem told_part_of_literal (part : String) :
    Told (Written (ClassPart.render currentLayer)) Anything (.literal part) := by
  intro other text text' rest rest' written written' _ _ same
  obtain ⟨value, ok, rfl⟩ := written
  obtain rfl := Except.ok.inj ok
  rw [toList_quoted] at same
  cases other with
  | helper other => exact absurd same (quoted_ne_helper written')
  | literal other =>
    obtain ⟨value, ok, rfl⟩ := written'
    obtain rfl := Except.ok.inj ok
    rw [toList_quoted] at same
    obtain ⟨equal, behind⟩ := quotedChars_append_inj (.inl rfl) same
    exact ⟨congrArg _ equal, behind⟩

mutual

theorem told_helper : ∀ helper : Helper, Told (Written (Helper.render currentLayer)) Anything helper
  | .boolean _ (some values) => told_of_inner _ (told_values values) nofun
  | .enum _ values => told_of_inner _ (told_values values) nofun
  | .className parts => told_of_inner _ nofun (told_parts parts)
  | .boolean _ none => told_of_inner _ nofun nofun
  | .string _ => told_of_inner _ nofun nofun
  | .swap _ => told_of_inner _ nofun nofun
  | .children _ => told_of_inner _ nofun nofun
  | .nestedProps _ _ => told_of_inner _ nofun nofun
  | .textContent _ => told_of_inner _ nofun nofun

theorem told_values : ∀ values : List (String × Value), ∀ entry ∈ values,
    Told (Written (Value.render currentLayer)) (FollowsItem '\x7d') entry.2
  | [], _, member => nomatch member
  | (_, .helper helper) :: rest, entry, member => by
    cases member with
    | head => exact told_value_of_helper (told_helper helper)
    | tail _ later => exact told_values rest entry later
  | (_, .literal literal) :: rest, entry, member => by
    cases member with
    | head => exact told_value_of_literal literal
    | tail _ later => exact told_values rest entry later

theorem told_parts : ∀ parts : List ClassPart, ∀ part ∈ parts,
    Told (Written (ClassPart.render currentLayer)) Anything part
  | [], _, member => nomatch member
  | .helper helper :: rest, part, member => by
    cases member with
    | head => exact told_part_of_helper (told_helper helper)
    | tail _ later => exact told_parts rest part later
  | .literal text :: rest, part, member => by
    cases member with
    | head => exact told_part_of_literal text
    | tail _ later => exact told_parts rest part later

end

namespace PropMapping

/-- Two mappings that are rendered to the same code are the same. -/
theorem render_injective {props props' : PropMapping} {text : String}
    (rendered : props.render none = .ok text)
    (rendered' : props'.render none = .ok text) : props = props' := by
  rw [render_layerOf] at rendered rendered'
  obtain ⟨entries, read, shape⟩ := exists_of_map rendered
  obtain ⟨entries', read', shape'⟩ := exists_of_map rendered'
  have same := congrArg String.toList (shape.symm.trans shape')
  rw [toList_renderObject, toList_renderObject] at same
  have joined : Parser.joined ['\n'] ['\x7d'] (entries.map String.toList) ++ [] =
      Parser.joined ['\n'] ['\x7d'] (entries'.map String.toList) ++ [] := by
    simpa using same
  have each : ∀ entry ∈ props,
      Told (Written (Helper.render currentLayer)) (FollowsItem '\x7d') entry.2 := by
    intro entry _ other first second rest rest' written written' _ _ equal
    exact told_helper entry.2 other first second rest rest' written written' trivial trivial equal
  exact (entries_inj each (written_renderProps read) (written_renderProps read') joined).1

/-- A mapping to a number that is given by its digits. -/
def sizeProps (digits : Nat) (exponent : Int) : PropMapping :=
  [("size", .enum "It's" [("S", .literal (.number (.ofDecimal false digits exponent)))])]

def halfText : String :=
  "\x7b\n\"size\": figma.currentLayer.__properties__.enum('It\\'s', \x7b\n\"S\": 0.5\x7d)\x7d"

theorem render_injective_half : (sizeProps 5 (-1)).render none = .ok halfText ∧
    (sizeProps 50 (-2)).render none = .ok halfText ∧
    sizeProps 5 (-1) = sizeProps 50 (-2) := by
  have once : ((sizeProps 5 (-1)).render none).toOption = some halfText := by
    decide +kernel
  have twice : ((sizeProps 50 (-2)).render none).toOption = some halfText := by
    decide +kernel
  rw [toOption_eq_some] at once twice
  exact ⟨once, twice, render_injective once twice⟩

end PropMapping

end DesignLink
