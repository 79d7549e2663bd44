import DesignLink.Proofs.Mapping.Unambiguous

/-!
The look-ups that a mapping is written out with. Rendering fails exactly if props of an inner layer
stand among them, with the first ones in the order of the text; and if it does not fail, the layer
stands once in the text for each look-up and nowhere else.
-/

namespace DesignLink

mutual

def Helper.inner : Helper → List Helper
  | .boolean _ (some values) => shownInValues values
  | .enum _ values => shownInValues values
  | .className parts => shownInParts parts
  | .boolean _ none | .string _ | .swap _ | .children _ | .nestedProps _ _ | .textContent _ => []

def shownInValues : List (String × Value) → List Helper
  | [] => []
  | (_, .helper helper) :: rest => helper :: (helper.inner ++ shownInValues rest)
  | (_, .literal _) :: rest => shownInValues rest

def shownInParts : List ClassPart → List Helper
  | [] => []
  | .literal _ :: rest => shownInParts rest
  | .helper helper :: rest => helper :: (helper.inner ++ shownInParts rest)

end

def Helper.shown (helper : Helper) : List Helper := helper :: helper.inner

def Value.shown : Value → List Helper
  | .helper inner => inner.shown
  | .literal _ => []

def ClassPart.shown : ClassPart → List Helper
  | .literal _ => []
  | .helper inner => inner.shown

/-- The helpers that are written out with some props, at any depth and in the order of the text. -/
def PropMapping.shown (props : PropMapping) : List Helper :=
  props.flatMap fun entry => entry.2.shown

def ValueMapping.shown (values : ValueMapping) : List Helper :=
  values.flatMap fun entry => entry.2.shown

theorem shownInValues_eq (values : List (String × Value)) :
    shownInValues values = ValueMapping.shown values := by
  induction values with
  | nil => rw [shownInValues, ValueMapping.shown, List.flatMap_nil]
  | cons entry rest ih =>
    obtain ⟨key, helper | literal⟩ := entry <;> rw [shownInValues, ih] <;> rfl

theorem shownInParts_eq (parts : List ClassPart) :
    shownInParts parts = parts.flatMap ClassPart.shown := by
  induction parts with
  | nil => rw [shownInParts, List.flatMap_nil]
  | cons part rest ih =>
    cases part <;> rw [shownInParts, ih, List.flatMap_cons] <;> rfl

/-! Errors. -/

def Helper.nesting? : Helper → Option UnsupportedNesting
  | .nestedProps layer _ => some ⟨layer⟩
  | _ => none

theorem nesting?_eq_some {helper : Helper} {layer : String} :
    helper.nesting? = some ⟨layer⟩ ↔ ∃ nested, helper = .nestedProps layer nested := by
  cases helper <;> simp [Helper.nesting?]

theorem nesting?_eq_none {helper : Helper} :
    helper.nesting? = none ↔ helper.kind ≠ .nestedProps := by
  cases helper <;> simp [Helper.nesting?, Helper.kind]

theorem isSome_nesting? {helper : Helper} :
    helper.nesting?.isSome = true ↔ helper.kind = .nestedProps := by
  cases helper <;> simp [Helper.nesting?, Helper.kind]

def firstNesting (helpers : List Helper) : Option UnsupportedNesting :=
  helpers.findSome? Helper.nesting?

theorem firstNesting_append (front back : List Helper) :
    firstNesting (front ++ back) = (firstNesting front).or (firstNesting back) :=
  List.findSome?_append

theorem firstNesting_shown {helper : Helper} (fine : helper.nesting? = none) :
    firstNesting helper.shown = firstNesting helper.inner := by
  rw [Helper.shown, firstNesting, List.findSome?_cons, fine]
  rfl

section Errors

variable {selector : Option String}

theorem errorOf?_values {values : List (String × Value)}
    (each : ∀ entry ∈ values, errorOf? (entry.2.render selector) = firstNesting entry.2.shown) :
    errorOf? (renderValues selector values) = firstNesting (shownInValues values) := by
  rw [shownInValues_eq]
  induction values with
  | nil => rw [renderValues]; rfl
  | cons entry rest ih =>
    obtain ⟨first, others⟩ := List.forall_mem_cons.mp each
    rw [renderValues_cons, errorOf?_both, first, ih others, ← firstNesting_append]
    rfl

theorem errorOf?_parts {parts : List ClassPart}
    (each : ∀ part ∈ parts, errorOf? (part.render selector) = firstNesting part.shown) :
    errorOf? (renderParts selector parts) = firstNesting (shownInParts parts) := by
  rw [shownInParts_eq]
  induction parts with
  | nil => rw [renderParts]; rfl
  | cons part rest ih =>
    obtain ⟨first, others⟩ := List.forall_mem_cons.mp each
    rw [renderParts_cons, errorOf?_both, first, ih others, ← firstNesting_append]
    rfl

mutual

theorem errorOf?_render (selector : Option String) : ∀ helper : Helper,
    errorOf? (helper.render selector) = firstNesting helper.shown
  | .boolean _ none => by rw [Helper.render, firstNesting_shown rfl, Helper.inner]; rfl
  | .boolean _ (some values) => by
    rw [Helper.render, errorOf?_map, firstNesting_shown rfl, Helper.inner]
    exact errorOf?_values (errorOf?_eachValue _ values)
  | .enum _ values => by
    rw [Helper.render, errorOf?_map, firstNesting_shown rfl, Helper.inner]
    exact errorOf?_values (errorOf?_eachValue _ values)
  | .string _ => by rw [Helper.render, firstNesting_shown rfl, Helper.inner]; rfl
  | .swap _ => by rw [Helper.render, firstNesting_shown rfl, Helper.inner]; rfl
  | .children _ => by rw [Helper.render, firstNesting_shown rfl, Helper.inner]; rfl
  | .nestedProps _ _ => by rw [Helper.render]; rfl
  | .className parts => by
    rw [Helper.render, errorOf?_map, firstNesting_shown rfl, Helper.inner]
    exact errorOf?_parts (errorOf?_eachPart _ parts)
  | .textContent _ => by rw [Helper.render, firstNesting_shown rfl, Helper.inner]; rfl

theorem errorOf?_eachValue (selector : Option String) : ∀ values : List (String × Value),
    ∀ entry ∈ values,
    errorOf? (entry.2.render selector) = firstNesting entry.2.shown
  | (_, .helper helper) :: rest, entry, member => by
    rcases List.mem_cons.mp member with rfl | later
    · exact errorOf?_render selector helper
    · exact errorOf?_eachValue selector rest entry later
  | (_, .literal _) :: rest, entry, member => by
    rcases List.mem_cons.mp member with rfl | later
    · rfl
    · exact errorOf?_eachValue selector rest entry later

theorem errorOf?_eachPart (selector : Option String) : ∀ parts : List ClassPart, ∀ part ∈ parts,
    errorOf? (part.render selector) = firstNesting part.shown
  | .literal _ :: rest, part, member => by
    rcases List.mem_cons.mp member with rfl | later
    · rfl
    · exact errorOf?_eachPart selector rest part later
  | .helper helper :: rest, part, member => by
    rcases List.mem_cons.mp member with rfl | later
    · exact errorOf?_render selector helper
    · exact errorOf?_eachPart selector rest part later

end

theorem errorOf?_propsRendered (props : PropMapping) :
    errorOf? (renderProps selector props) = firstNesting props.shown := by
  induction props with
  | nil => rw [renderProps]; rfl
  | cons entry rest ih =>
    rw [renderProps, errorOf?_both, errorOf?_render, ih, ← firstNesting_append]
    rfl

theorem errorOf?_eq_some_iff {ε α : Type} {x : Except ε α} {e : ε} :
    errorOf? x = some e ↔ x = .error e := by
  cases x <;> simp [errorOf?]

end Errors

/-- Rendering fails exactly if props of an inner layer are written out anywhere, and then with the
layer of the first ones in the order of the text. The layer that look-ups start from plays no
part. -/
theorem PropMapping.render_fails_iff (props : PropMapping) (selector : Option String) :
    ((∃ e, props.render selector = .error e) ↔ ∃ helper ∈ props.shown, helper.kind = .nestedProps) ∧
    ∀ inner, props.render selector = .error ⟨inner⟩ ↔ ∃ front nested back,
      props.shown = front ++ .nestedProps inner nested :: back ∧
        ∀ helper ∈ front, helper.kind ≠ .nestedProps := by
  have fails (e : UnsupportedNesting) :
      props.render selector = .error e ↔ firstNesting props.shown = some e := by
    have first : errorOf? (renderProps selector props) = firstNesting props.shown :=
      errorOf?_propsRendered props
    rw [← errorOf?_eq_some_iff, ← first, PropMapping.render]
    cases renderProps selector props <;> rfl
  constructor
  · simp only [fails, ← Option.isSome_iff_exists, firstNesting, List.findSome?_isSome_iff,
      isSome_nesting?]
  · intro inner
    rw [fails, firstNesting, List.findSome?_eq_some_iff]
    constructor
    · rintro ⟨front, helper, back, shape, found, none_⟩
      obtain ⟨nested, rfl⟩ := nesting?_eq_some.mp found
      exact ⟨front, nested, back, shape, fun other member =>
        nesting?_eq_none.mp (none_ other member)⟩
    · rintro ⟨front, nested, back, shape, others⟩
      exact ⟨front, .nestedProps inner nested, back, shape, rfl,
        fun other member => nesting?_eq_none.mpr (others other member)⟩

/-! Texts with the layer in them. -/

/-- A text in which the layer stands in some places, between pieces that do not depend on it. -/
def Threads (places : Nat) (text : String → String) : Prop :=
  ∃ pieces : List String, pieces.length = places + 1 ∧
    ∀ layer, text layer = String.intercalate layer pieces

/-- Of two rows of pieces the last one of the first and the first one of the second become one. -/
theorem exists_glued (front back : List String) (frontNonempty : front ≠ [])
    (backNonempty : back ≠ []) : ∃ glued : List String,
      glued.length + 1 = front.length + back.length ∧
      ∀ layer, String.intercalate layer glued =
        String.intercalate layer front ++ String.intercalate layer back := by
  induction front with
  | nil => exact absurd rfl frontNonempty
  | cons piece front ih =>
    cases front with
    | nil =>
      obtain ⟨first, others, rfl⟩ := List.exists_cons_of_ne_nil backNonempty
      exact ⟨(piece ++ first) :: others, by simp; omega, by simp⟩
    | cons next front =>
      obtain ⟨glued, length, joined⟩ := ih (List.cons_ne_nil next front)
      have nonempty : glued ≠ [] := by
        rintro rfl
        have some_ := List.length_pos_iff.mpr backNonempty
        simp only [List.length_nil, List.length_cons] at length
        omega
      refine ⟨piece :: glued, by simp only [List.length_cons] at length ⊢; omega, ?_⟩
      intro layer
      simp only [String.intercalate_cons_of_ne_nil nonempty, joined,
        String.intercalate_cons_of_ne_nil (List.cons_ne_nil next front), String.append_assoc]

namespace Threads

variable {places others : Nat} {text later : String → String}

theorem piece (text : String) : Threads 0 fun _ => text := ⟨[text], rfl, fun _ => by simp⟩

theorem layer : Threads 1 fun layer => layer := ⟨["", ""], rfl, fun layer => by simp⟩

theorem append (first : Threads places text) (second : Threads others later) :
    Threads (places + others) fun layer => text layer ++ later layer := by
  obtain ⟨front, frontLength, frontText⟩ := first
  obtain ⟨back, backLength, backText⟩ := second
  obtain ⟨glued, length, joined⟩ := exists_glued front back
    (List.ne_nil_of_length_eq_add_one frontLength) (List.ne_nil_of_length_eq_add_one backLength)
  refine ⟨glued, by omega, fun layer => ?_⟩
  simp only [joined, frontText, backText]

theorem around (first : Threads places text) (before behind : String) :
    Threads places fun layer => before ++ text layer ++ behind := by
  have all := ((piece before).append first).append (piece behind)
  rwa [Nat.zero_add] at all

end Threads

/-- Texts in each of which the layer stands in some places. -/
inductive ThreadsAll : Nat → List (String → String) → Prop where
  | nil : ThreadsAll 0 []
  | cons {places others text texts} (first : Threads places text) (rest : ThreadsAll others texts) :
    ThreadsAll (places + others) (text :: texts)

theorem ThreadsAll.joined {places : Nat} {texts : List (String → String)}
    (all : ThreadsAll places texts) (gap : String) :
    Threads places fun layer => String.intercalate gap (texts.map (· layer)) := by
  induction all with
  | nil => simpa using Threads.piece ""
  | cons first rest ih =>
    cases rest with
    | nil => simpa using first
    | cons next more => simpa using (first.append (Threads.piece gap)).append ih

/-! Look-ups. -/

/-- How many helpers are look-ups: all but class names, which only put others together. -/
def countLookUps (helpers : List Helper) : Nat :=
  helpers.countP fun helper => helper.kind ≠ .className

theorem countLookUps_append (front back : List Helper) :
    countLookUps (front ++ back) = countLookUps front + countLookUps back := List.countP_append

theorem countLookUps_shown {helper : Helper} (isLookUp : helper.kind ≠ .className) :
    countLookUps helper.shown = 1 + countLookUps helper.inner := by
  rw [Helper.shown, countLookUps, List.countP_cons_of_pos (by simpa using isLookUp), Nat.add_comm]
  rfl

/-- No props of an inner layer are among some helpers. -/
def NoNesting (helpers : List Helper) : Prop := ∀ helper ∈ helpers, helper.kind ≠ .nestedProps

theorem noNesting_append {front back : List Helper} :
    NoNesting (front ++ back) ↔ NoNesting front ∧ NoNesting back := List.forall_mem_append

theorem threads_access {places : Nat} {arguments : String → String} (kind : HelperKind)
    (threads : Threads places arguments) :
    Threads (1 + places) fun layer => renderAccess layer kind (arguments layer) :=
  ((((Threads.layer.append (.piece ".__properties__.")).append (.piece kind.tag)).append
    (.piece "(")).append threads).append (.piece ")")

theorem threads_mapped {places : Nat} {entries : List (String → String)} (kind : HelperKind)
    (property : String) (threads : ThreadsAll places entries) :
    Threads (1 + places) fun layer => renderAccess layer kind
      (Text.quotedSingle property ++ ", " ++ renderObject (entries.map (· layer))) := by
  have object := (threads.joined ",\n").around "\x7b\n" "\x7d"
  have arguments := (Threads.piece (Text.quotedSingle property ++ ", ")).append object
  rw [Nat.zero_add] at arguments
  exact threads_access kind arguments

def Helper.Threads (helper : Helper) : Prop :=
  ∃ text : String → String, (∀ layer, helper.render (some layer) = .ok (text layer)) ∧
    DesignLink.Threads (countLookUps helper.shown) text

theorem threads_of_alone {helper : Helper} {kind : HelperKind} {arguments : String}
    (isLookUp : helper.kind ≠ .className) (alone : helper.inner = [])
    (renders : ∀ layer, helper.render (some layer) = .ok (renderAccess layer kind arguments)) :
    helper.Threads := by
  refine ⟨_, renders, ?_⟩
  rw [countLookUps_shown isLookUp, alone]
  exact threads_access kind (.piece arguments)

mutual

/-- A helper without props of an inner layer has the layer in its text once for each look-up. -/
theorem threads_render : ∀ helper : Helper, NoNesting helper.shown → helper.Threads
  | .boolean property none, _ =>
    threads_of_alone (by rintro ⟨⟩) (by rw [Helper.inner]) fun layer => by rw [Helper.render, layerOf_some]
  | .boolean property (some values), fine => by
    rw [Helper.shown, Helper.inner] at fine
    obtain ⟨entries, rendered, threads⟩ := threads_values values (List.forall_mem_cons.mp fine).2
    refine ⟨_, fun layer => by rw [Helper.render, layerOf_some, rendered layer]; rfl, ?_⟩
    rw [countLookUps_shown (by rintro ⟨⟩), Helper.inner]
    exact threads_mapped .boolean property threads
  | .enum property values, fine => by
    rw [Helper.shown, Helper.inner] at fine
    obtain ⟨entries, rendered, threads⟩ := threads_values values (List.forall_mem_cons.mp fine).2
    refine ⟨_, fun layer => by rw [Helper.render, layerOf_some, rendered layer]; rfl, ?_⟩
    rw [countLookUps_shown (by rintro ⟨⟩), Helper.inner]
    exact threads_mapped .enum property threads
  | .string property, _ =>
    threads_of_alone (by rintro ⟨⟩) (by rw [Helper.inner]) fun layer => by rw [Helper.render, layerOf_some]
  | .swap property, _ =>
    threads_of_alone (by rintro ⟨⟩) (by rw [Helper.inner]) fun layer => by rw [Helper.render, layerOf_some]
  | .children layers, _ =>
    threads_of_alone (by rintro ⟨⟩) (by rw [Helper.inner]) fun layer => by rw [Helper.render, layerOf_some]
  | .nestedProps inner props, fine => absurd rfl (fine _ List.mem_cons_self)
  | .className parts, fine => by
    rw [Helper.shown, Helper.inner] at fine
    obtain ⟨texts, rendered, threads⟩ := threads_parts parts (List.forall_mem_cons.mp fine).2
    refine ⟨_, fun layer => by rw [Helper.render, layerOf_some, rendered layer]; rfl, ?_⟩
    rw [Helper.shown, countLookUps, List.countP_cons_of_neg (by simp [Helper.kind]), Helper.inner]
    exact (threads.joined ", ").around "[" "].filter(v => !!v).join(' ')"
  | .textContent inner, _ => by
    refine ⟨_, fun layer => by rw [Helper.render, layerOf_some], ?_⟩
    rw [countLookUps_shown (by rintro ⟨⟩), Helper.inner]
    exact ((Threads.layer.append (.piece ".__findChildWithCriteria__(\x7b name: ")).append
      (.piece (Text.quotedSingle inner))).append (.piece ", type: \"TEXT\" \x7d).textContent")

theorem threads_values : ∀ values : List (String × Value), NoNesting (shownInValues values) →
    ∃ entries : List (String → String),
      (∀ layer, renderValues (some layer) values = .ok (entries.map (· layer))) ∧
      ThreadsAll (countLookUps (shownInValues values)) entries
  | [], _ => by
    rw [shownInValues]
    exact ⟨[], fun layer => by rw [renderValues]; rfl, .nil⟩
  | (key, .helper helper) :: rest, fine => by
    rw [shownInValues, ← List.cons_append] at fine ⊢
    obtain ⟨first, others⟩ := noNesting_append.mp fine
    obtain ⟨text, rendered, threads⟩ := threads_render helper first
    obtain ⟨entries, renderedRest, threadsRest⟩ := threads_values rest others
    rw [countLookUps_append]
    refine ⟨(fun layer => renderEntry key (text layer)) :: entries, fun layer => ?_, ?_⟩
    · rw [renderValues, rendered layer, renderedRest layer]
      rfl
    · have entry := (Threads.piece (Text.quoted key ++ ": ")).append threads
      rw [Nat.zero_add] at entry
      exact .cons entry threadsRest
  | (key, .literal literal) :: rest, fine => by
    rw [shownInValues] at fine ⊢
    obtain ⟨entries, rendered, threads⟩ := threads_values rest fine
    refine ⟨(fun _ => renderEntry key literal.render) :: entries, fun layer => ?_, ?_⟩
    · rw [renderValues, rendered layer]
      rfl
    · have all := ThreadsAll.cons (.piece (renderEntry key literal.render)) threads
      rwa [Nat.zero_add] at all

theorem threads_parts : ∀ parts : List ClassPart, NoNesting (shownInParts parts) →
    ∃ texts : List (String → String),
      (∀ layer, renderParts (some layer) parts = .ok (texts.map (· layer))) ∧
      ThreadsAll (countLookUps (shownInParts parts)) texts
  | [], _ => by
    rw [shownInParts]
    exact ⟨[], fun layer => by rw [renderParts]; rfl, .nil⟩
  | .literal part :: rest, fine => by
    rw [shownInParts] at fine ⊢
    obtain ⟨texts, rendered, threads⟩ := threads_parts rest fine
    refine ⟨(fun _ => Text.quoted part) :: texts, fun layer => ?_, ?_⟩
    · rw [renderParts, rendered layer]
      rfl
    · have all := ThreadsAll.cons (.piece (Text.quoted part)) threads
      rwa [Nat.zero_add] at all
  | .helper helper :: rest, fine => by
    rw [shownInParts, ← List.cons_append] at fine ⊢
    obtain ⟨first, others⟩ := noNesting_append.mp fine
    obtain ⟨text, rendered, threads⟩ := threads_render helper first
    obtain ⟨texts, renderedRest, threadsRest⟩ := threads_parts rest others
    rw [countLookUps_append]
    refine ⟨text :: texts, fun layer => ?_, .cons threads threadsRest⟩
    rw [renderParts, rendered layer, renderedRest layer]
    rfl

end

theorem firstNesting_eq_none {helpers : List Helper} :
    firstNesting helpers = none ↔ NoNesting helpers := by
  rw [firstNesting, List.findSome?_eq_none_iff, NoNesting]
  exact forall₂_congr fun _ _ => nesting?_eq_none

theorem errorOf?_of_ok {ε α : Type} {x : Except ε α} {a : α} (ok : x = .ok a) :
    errorOf? x = none := by
  rw [ok]
  rfl

theorem threads_renderProps {props : PropMapping} (fine : NoNesting props.shown) :
    ∃ entries : List (String → String),
      (∀ layer, renderProps (some layer) props = .ok (entries.map (· layer))) ∧
      ThreadsAll (countLookUps props.shown) entries := by
  induction props with
  | nil => exact ⟨[], fun layer => by rw [renderProps]; rfl, .nil⟩
  | cons entry rest ih =>
    rw [PropMapping.shown, List.flatMap_cons] at fine ⊢
    obtain ⟨first, others⟩ := noNesting_append.mp fine
    obtain ⟨text, rendered, threads⟩ := threads_render entry.2 first
    obtain ⟨entries, renderedRest, threadsRest⟩ := ih others
    rw [countLookUps_append]
    refine ⟨(fun layer => renderEntry entry.1 (text layer)) :: entries, fun layer => ?_, ?_⟩
    · rw [renderProps, rendered layer, renderedRest layer]
      rfl
    · have named := (Threads.piece (Text.quoted entry.1 ++ ": ")).append threads
      rw [Nat.zero_add] at named
      exact .cons named threadsRest

def JoinsPieces (places : Nat) (render : Option String → Except UnsupportedNesting String) :
    Prop :=
  ∃ pieces : List String, pieces.length = places + 1 ∧
    ∀ layer, render (some layer) = .ok (String.intercalate layer pieces)

theorem joinsPieces_of_threads {places : Nat} {text : String → String}
    {render : Option String → Except UnsupportedNesting String}
    (rendered : ∀ layer, render (some layer) = .ok (text layer)) (threads : Threads places text) :
    JoinsPieces places render := by
  obtain ⟨pieces, length, joined⟩ := threads
  exact ⟨pieces, length, fun layer => by rw [rendered, joined]⟩

theorem joinsPieces_of_entries {places : Nat} {entries : List (String → String)}
    {render : Option String → Except UnsupportedNesting (List String)}
    (rendered : ∀ layer, render (some layer) = .ok (entries.map (· layer)))
    (threads : ThreadsAll places entries) :
    JoinsPieces places fun selector => (render selector).map renderObject :=
  joinsPieces_of_threads (fun layer => by rw [rendered]; rfl)
    ((threads.joined ",\n").around "\x7b\n" "\x7d")

/-- A helper, a value mapping and a prop mapping that are rendered at all, from whichever layer, are
pieces of text, one more than there are look-ups among what is written out, joined by the layer that
look-ups start from. Without a selector each of them is rendered, or fails, as from the current
layer. -/
theorem render_joinsPieces :
    ((∀ helper : Helper, (∃ selector text, helper.render selector = .ok text) →
        JoinsPieces (countLookUps helper.shown) fun selector => helper.render selector) ∧
      (∀ values : ValueMapping, (∃ selector text, values.render selector = .ok text) →
        JoinsPieces (countLookUps values.shown) fun selector => values.render selector) ∧
      ∀ props : PropMapping, (∃ selector text, props.render selector = .ok text) →
        JoinsPieces (countLookUps props.shown) fun selector => props.render selector) ∧
    (∀ helper : Helper, helper.render none = helper.render (some "figma.currentLayer")) ∧
    (∀ values : ValueMapping, values.render none = values.render (some "figma.currentLayer")) ∧
    ∀ props : PropMapping, props.render none = props.render (some "figma.currentLayer") := by
  refine ⟨⟨?_, ?_, ?_⟩, Helper.render_layerOf none, ValueMapping.render_layerOf none,
    PropMapping.render_layerOf none⟩
  · rintro helper ⟨selector, text, ok⟩
    have fine := firstNesting_eq_none.mp ((errorOf?_render _ helper).symm.trans (errorOf?_of_ok ok))
    obtain ⟨text, rendered, threads⟩ := threads_render helper fine
    exact joinsPieces_of_threads rendered threads
  · rintro values ⟨selector, text, ok⟩
    obtain ⟨entries, read, -⟩ := exists_of_map ok
    have none_ := (errorOf?_values (errorOf?_eachValue _ values)).symm.trans (errorOf?_of_ok read)
    obtain ⟨entries, rendered, threads⟩ := threads_values values (firstNesting_eq_none.mp none_)
    rw [shownInValues_eq] at threads
    exact joinsPieces_of_entries rendered threads
  · rintro props ⟨selector, text, ok⟩
    obtain ⟨entries, read, -⟩ := exists_of_map ok
    have none_ := (errorOf?_propsRendered props).symm.trans (errorOf?_of_ok read)
    obtain ⟨entries, rendered, threads⟩ := threads_renderProps (firstNesting_eq_none.mp none_)
    exact joinsPieces_of_entries rendered threads

def sizedClass : Helper :=
  .className [.literal "figma.currentLayer",
    .helper (.enum "Size" [("Large", .helper (.swap "Icon"))])]

theorem render_joinsPieces_sized :
    (∃ selector text, sizedClass.render selector = .ok text) ∧
    (JoinsPieces 2 fun selector => sizedClass.render selector) ∧
    (JoinsPieces 2 fun selector => ValueMapping.render selector [("a", .helper sizedClass)]) ∧
    JoinsPieces 2 fun selector => PropMapping.render selector [("a", sizedClass)] := by
  have helper : ∃ selector text, sizedClass.render selector = .ok text := ⟨none, _, rfl⟩
  have values : ∃ selector text,
      ValueMapping.render selector [("a", .helper sizedClass)] = .ok text := ⟨none, _, rfl⟩
  have props : ∃ selector text, PropMapping.render selector [("a", sizedClass)] = .ok text :=
    ⟨none, _, rfl⟩
  obtain ⟨ofHelper, ofValues, ofProps⟩ := render_joinsPieces.1
  exact ⟨helper, ofHelper _ helper, ofValues _ values, ofProps _ props⟩

end DesignLink
