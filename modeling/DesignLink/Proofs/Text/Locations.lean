import DesignLink.Proofs.Text.Span
import Mathlib.Algebra.Group.Nat.Defs
import Mathlib.Data.List.Induction
import Mathlib.Data.Prod.Lex
import Mathlib.Order.Monotone.Basic

/-!
Places of a source. Each character leads on to a later place, where lines come before columns, so
offsets between characters have different places, in the order of the offsets. Characters that were
added in front of the first line leave all places behind them as they were. Main statements:
`strictMonoOn_location`, `location_of_added`.
-/

namespace DesignLink

namespace Location

/-- An earlier line, or an earlier column of the same line, is an earlier place. -/
instance : Preorder Location := Preorder.lift fun place => toLex (place.line, place.column)

theorem lt_iff {a b : Location} :
    a < b ↔ a.line < b.line ∨ a.line = b.line ∧ a.column < b.column :=
  Prod.Lex.toLex_lt_toLex

/-- The place behind a character. -/
def behind (place : Location) (c : Char) : Location :=
  if c = '\n' then ⟨place.line + 1, 1⟩ else ⟨place.line, place.column + 1⟩

theorem lt_behind (place : Location) (c : Char) : place < place.behind c := by
  rw [lt_iff, behind]
  split
  case isTrue => exact .inl (Nat.lt_succ_self _)
  case isFalse => exact .inr ⟨rfl, Nat.lt_succ_self _⟩

theorem lt_foldl_behind {text : List Char} (nonempty : text ≠ []) (place : Location) :
    place < text.foldl behind place := by
  induction text generalizing place with
  | nil => exact absurd rfl nonempty
  | cons c rest ih =>
    rw [List.foldl_cons]
    cases rest with
    | nil => exact place.lt_behind c
    | cons d more => exact (place.lt_behind c).trans (ih (List.cons_ne_nil d more) _)

theorem line_le_foldl_behind (text : List Char) (place : Location) :
    place.line ≤ (text.foldl behind place).line := by
  cases text with
  | nil => exact Nat.le_refl _
  | cons c rest =>
    rcases lt_iff.mp (lt_foldl_behind (List.cons_ne_nil c rest) place) with earlier | ⟨same, -⟩
    · exact Nat.le_of_lt earlier
    · exact Nat.le_of_eq same

/-- The place with more characters in front of the first line. -/
def shifted (place : Location) (count : Nat) : Location :=
  ⟨place.line, if place.line = 1 then place.column + count else place.column⟩

/-- The place without some of the characters in front of the first line. -/
def unshifted (place : Location) (count : Nat) : Location :=
  ⟨place.line, if place.line = 1 then max (place.column - count) 1 else place.column⟩

theorem unshifted_shifted {place : Location} (counted : 1 ≤ place.column) (count : Nat) :
    (place.shifted count).unshifted count = place := by
  obtain ⟨line, column⟩ := place
  change 1 ≤ column at counted
  unfold unshifted shifted
  by_cases first : line = 1
  · simp only [first, if_true]
    rw [Nat.add_sub_cancel, Nat.max_eq_left counted]
  · simp only [first, if_false]

theorem behind_shifted {place : Location} (counted : 1 ≤ place.line) (count : Nat) (c : Char) :
    (place.shifted count).behind c = (place.behind c).shifted count := by
  unfold behind shifted
  split
  case isTrue =>
    have other : place.line + 1 ≠ 1 := by omega
    rw [if_neg other]
  case isFalse =>
    split
    · rw [Nat.add_right_comm]
    · rfl

theorem foldl_behind_shifted (text : List Char) {place : Location} (counted : 1 ≤ place.line)
    (count : Nat) :
    text.foldl behind (place.shifted count) = (text.foldl behind place).shifted count := by
  induction text generalizing place with
  | nil => rfl
  | cons c rest ih =>
    have counted' : 1 ≤ (place.behind c).line :=
      counted.trans (line_le_foldl_behind [c] place)
    rw [List.foldl_cons, List.foldl_cons, behind_shifted counted, ih counted']

theorem foldl_behind_of_noBreak {text : List Char} (noBreak : '\n' ∉ text) (place : Location) :
    text.foldl behind place = ⟨place.line, place.column + text.length⟩ := by
  induction text generalizing place with
  | nil => rfl
  | cons c rest ih =>
    rw [List.mem_cons, not_or] at noBreak
    obtain ⟨other, noBreak⟩ := noBreak
    rw [List.foldl_cons, ih noBreak, behind, if_neg (Ne.symm other), List.length_cons,
      Nat.add_assoc, Nat.add_comm 1]

end Location

namespace Text

def placeBehind (text : List Char) : Location := text.foldl Location.behind ⟨1, 1⟩

theorem lastLine_concat (text : List Char) (c : Char) :
    lastLine (text ++ [c]) = if c = '\n' then [] else lastLine text ++ [c] := by
  rw [lastLine, List.foldl_append, List.foldl_cons, List.foldl_nil]
  split
  · rfl
  · rw [List.reverse_cons, lastLine]

/-- The place behind a text counts its line breaks and the characters of its last line. -/
theorem placeBehind_eq (text : List Char) :
    placeBehind text = ⟨text.count '\n' + 1, (lastLine text).length + 1⟩ := by
  induction text using List.reverseRecOn with
  | nil => rfl
  | append_singleton front c ih =>
    rw [placeBehind] at ih ⊢
    rw [List.foldl_append, ih, List.foldl_cons, List.foldl_nil, Location.behind, lastLine_concat,
      List.count_append, List.count_singleton]
    by_cases lineBreak : c = '\n'
    · simp [lineBreak]
    · simp [lineBreak]

theorem length_le_byteSize (text : List Char) : text.length ≤ byteSize text := by
  induction text with
  | nil => exact Nat.le_refl 0
  | cons c rest ih =>
    have positive := c.utf8Size_pos
    rw [List.length_cons, byteSize_cons]
    omega

theorem length_lastLine_le (text : List Char) : (lastLine text).length ≤ text.length := by
  induction text using List.reverseRecOn with
  | nil => exact Nat.le_refl 0
  | append_singleton front c ih =>
    rw [lastLine_concat, List.length_append]
    split
    · exact Nat.zero_le _
    · rw [List.length_append]
      exact Nat.add_le_add_right ih _

end Text

namespace Source

variable {source : Source} {offset : Nat}

/-- A character starts at the offset, or the text ends there. -/
def IsBoundary (source : Source) (offset : Nat) : Prop := ∃ rest, source.GoesOn offset rest

theorem before_eq {front rest : List Char} (text : source.text = front ++ rest) :
    source.before (Text.byteSize front) = front := by
  rw [before, text, Text.splitBytes?_append]

/-- The place of an offset is that behind the text in front of it, without the characters that do
not count. -/
theorem location_eq {front rest : List Char} (text : source.text = front ++ rest) :
    source.location (Text.byteSize front) = (Text.placeBehind front).unshifted source.base := by
  rw [location, before_eq text, Text.placeBehind_eq]
  rfl

/-- Characters in front of the first line that do not count leave the places behind them as they
are without them. -/
theorem location_of_added {added front rest : List Char} (noBreak : '\n' ∉ added)
    (text : source.text = added ++ (front ++ rest)) (base : source.base = added.length) :
    source.location (Text.byteSize added + Text.byteSize front) = Text.placeBehind front := by
  have start : Text.placeBehind added = Location.shifted ⟨1, 1⟩ added.length :=
    Location.foldl_behind_of_noBreak noBreak ⟨1, 1⟩
  have place : Text.placeBehind (added ++ front) =
      (Text.placeBehind front).shifted added.length := by
    rw [Text.placeBehind] at start
    rw [Text.placeBehind, List.foldl_append, start,
      Location.foldl_behind_shifted front (Nat.le_refl 1)]
    rfl
  have counted : 1 ≤ (Text.placeBehind front).column := by
    rw [Text.placeBehind_eq]
    exact Nat.le_add_left 1 _
  rw [← List.append_assoc] at text
  rw [← Text.byteSize_append, location_eq text, place, base, Location.unshifted_shifted counted]

/-- Where all characters count, the place of an offset is that behind the text in front of it. -/
theorem location_of_base_zero {front rest : List Char} (text : source.text = front ++ rest)
    (noBase : source.base = 0) :
    source.location (Text.byteSize front) = Text.placeBehind front := by
  have noBreak : '\n' ∉ ([] : List Char) := List.not_mem_nil
  have same := location_of_added noBreak text noBase
  rwa [Text.byteSize_nil, Nat.zero_add] at same

theorem byteSize_le {file text : String} {front rest : List Char}
    (shape : (ofString file text).text = front ++ rest) :
    Text.byteSize front ≤ text.utf8ByteSize := by
  have whole : text.toList = front ++ rest := shape
  rw [← Text.byteSize_toList, whole, Text.byteSize_append]
  exact Nat.le_add_right _ _

/-- Up to the offset, neither the lines nor the characters of one line are too many to be counted in
32 bits. -/
structure CountersFit (source : Source) (offset : Nat) : Prop where
  lines : (source.before offset).count '\n' + 1 < 2 ^ 32
  columns : (Text.lastLine (source.before offset)).length + 1 < 2 ^ 32

theorem countersFit {front rest : List Char} (text : source.text = front ++ rest)
    (small : Text.byteSize front < 2 ^ 32 - 1) : source.CountersFit (Text.byteSize front) := by
  have characters := Text.length_le_byteSize front
  have breaks : front.count '\n' ≤ front.length := List.count_le_length
  have last := Text.length_lastLine_le front
  constructor
  · rw [before_eq text]
    omega
  · rw [before_eq text]
    omega

/-- Different offsets between characters have different places, in the same order, and there are
not too many lines and columns to be counted. -/
theorem strictMonoOn_location (file text : String) (small : text.utf8ByteSize < 2 ^ 32 - 1) :
    StrictMonoOn (ofString file text).location {offset | (ofString file text).IsBoundary offset} ∧
    Set.InjOn (ofString file text).location {offset | (ofString file text).IsBoundary offset} ∧
    ∀ offset, (ofString file text).IsBoundary offset →
      (ofString file text).CountersFit offset := by
  have increases : StrictMonoOn (ofString file text).location
      {offset | (ofString file text).IsBoundary offset} := by
    rintro a ⟨rest, opening⟩ b ⟨rest', closing⟩ less
    obtain ⟨between, rfl, rfl⟩ := opening.split closing (Nat.le_of_lt less)
    have nonempty : between ≠ [] := by
      rintro rfl
      exact absurd less (Nat.lt_irrefl _)
    obtain ⟨front, shape, rfl⟩ := opening
    have shape' : (ofString file text).text = (front ++ between) ++ rest' := by
      rw [shape, List.append_assoc]
    rw [← Text.byteSize_append, location_of_base_zero shape rfl, location_of_base_zero shape' rfl,
      Text.placeBehind, Text.placeBehind, List.foldl_append]
    exact Location.lt_foldl_behind nonempty _
  refine ⟨increases, increases.injOn, ?_⟩
  rintro offset ⟨rest, front, shape, rfl⟩
  exact countersFit shape (Nat.lt_of_le_of_lt (byteSize_le shape) small)

/-- In front of a line break, and behind a character of two bytes in the next line. -/
theorem strictMonoOn_location_accents :
    "a\né b".utf8ByteSize < 2 ^ 32 - 1 ∧ (ofString "a.tsx" "a\né b").IsBoundary 1 ∧
    (ofString "a.tsx" "a\né b").IsBoundary 4 ∧
    (ofString "a.tsx" "a\né b").location 1 = ⟨1, 2⟩ ∧
    (ofString "a.tsx" "a\né b").location 4 = ⟨2, 2⟩ ∧
    (ofString "a.tsx" "a\né b").location 1 < (ofString "a.tsx" "a\né b").location 4 := by
  have small : "a\né b".utf8ByteSize < 2 ^ 32 - 1 := by decide
  have lineEnd : (ofString "a.tsx" "a\né b").IsBoundary 1 :=
    ⟨['\n', 'é', ' ', 'b'], ['a'], by decide, by decide⟩
  have blank : (ofString "a.tsx" "a\né b").IsBoundary 4 :=
    ⟨[' ', 'b'], ['a', '\n', 'é'], by decide, by decide⟩
  exact ⟨small, lineEnd, blank, by decide, by decide,
    (strictMonoOn_location "a.tsx" "a\né b" small).1 lineEnd blank (by decide)⟩

end Source

end DesignLink
