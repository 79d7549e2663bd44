import DesignLink.Disk.Resolve
import Mathlib.Data.List.DropRight

/-!
Paths as texts: the pieces between slashes, the steps that they stand for, and what is left of them
in the path of the directory around.
-/

namespace DesignLink.Path

/-! Pieces. -/

theorem pieces_eq_splitOn : ∀ text : List Char, pieces text = text.splitOn '/'
  | [] => rfl
  | c :: rest => by
    rw [pieces, pieces_eq_splitOn rest, List.splitOn_cons_eq_if_modifyHead]
    cases shape : rest.splitOn '/' with
    | nil => exact absurd shape (List.splitOn_ne_nil '/' rest)
    | cons piece more =>
      by_cases slash : c = '/'
      · simp [slash]
      · simp [slash]

theorem joinPieces_eq_intercalate : ∀ pieces : List (List Char),
    joinPieces pieces = ['/'].intercalate pieces
  | [] => rfl
  | [piece] => by simp [joinPieces]
  | piece :: next :: rest => by
    rw [joinPieces, joinPieces_eq_intercalate (next :: rest), List.intercalate_cons_cons]
    · simp
    · exact List.cons_ne_nil next rest

theorem joinPieces_pieces (text : List Char) : joinPieces (pieces text) = text := by
  rw [joinPieces_eq_intercalate, pieces_eq_splitOn, List.intercalate_splitOn]

theorem pieces_joinPieces {kept : List (List Char)} (noSlash : ∀ piece ∈ kept, '/' ∉ piece)
    (nonempty : kept ≠ []) : pieces (joinPieces kept) = kept := by
  rw [joinPieces_eq_intercalate, pieces_eq_splitOn, List.splitOn_intercalate '/' noSlash nonempty]

theorem pieces_append (front back : List Char) :
    pieces (front ++ '/' :: back) = pieces front ++ pieces back := by
  simp only [pieces_eq_splitOn, List.splitOn_append_cons_self]

theorem pieces_ne_nil (text : List Char) : pieces text ≠ [] := by
  rw [pieces_eq_splitOn]
  exact List.splitOn_ne_nil '/' text

theorem noSlash_pieces : ∀ text : List Char, ∀ piece ∈ pieces text, '/' ∉ piece
  | [], piece, member => by
    obtain rfl : piece = [] := List.mem_singleton.mp member
    exact List.not_mem_nil
  | c :: rest, piece, member => by
    have later := noSlash_pieces rest
    rw [pieces] at member
    cases shape : pieces rest with
    | nil => exact absurd shape (pieces_ne_nil rest)
    | cons first more =>
      rw [shape] at member later
      by_cases slash : c = '/'
      · simp only [slash, if_true, List.mem_cons] at member
        rcases member with rfl | among
        · exact List.not_mem_nil
        · exact later piece (List.mem_cons.mpr among)
      · simp only [slash, if_false, List.mem_cons] at member
        rcases member with rfl | among
        · have rest := later first List.mem_cons_self
          simp [rest, Ne.symm slash]
        · exact later piece (List.mem_cons_of_mem first among)

theorem pieces_of_noSlash {text : List Char} (noSlash : '/' ∉ text) : pieces text = [text] := by
  rw [pieces_eq_splitOn, List.splitOn_eq_singleton noSlash]

def stepPieces (pieces : List (List Char)) : List Component :=
  pieces.filterMap Component.ofPiece?

theorem trimEnd_eq_rdropWhile (pieces : List (List Char)) :
    trimEnd pieces = pieces.rdropWhile fun piece => (Component.ofPiece? piece).isNone := rfl

theorem stepPieces_trimEnd (pieces : List (List Char)) :
    stepPieces (trimEnd pieces) = stepPieces pieces := by
  induction pieces using List.reverseRecOn with
  | nil => rfl
  | append_singleton front last ih =>
    rw [trimEnd_eq_rdropWhile] at ih ⊢
    by_cases noStep : (Component.ofPiece? last).isNone = true
    · rw [List.rdropWhile_concat_pos (fun piece => (Component.ofPiece? piece).isNone) front last
        noStep, ih, stepPieces, stepPieces, List.filterMap_append]
      simp [Option.isNone_iff_eq_none.mp noStep]
    · rw [List.rdropWhile_concat_neg (fun piece => (Component.ofPiece? piece).isNone) front last
        noStep]

theorem trimEnd_front (pieces : List (List Char)) : trimEnd pieces <+: pieces :=
  List.rdropWhile_prefix _ _

theorem exists_trimEnd_concat {pieces : List (List Char)} (nonempty : trimEnd pieces ≠ []) :
    ∃ kept last step, trimEnd pieces = kept ++ [last] ∧ Component.ofPiece? last = some step := by
  have isStep := List.rdropWhile_last_not _ pieces nonempty
  rw [Bool.not_eq_true, Option.isNone_eq_false_iff] at isStep
  obtain ⟨step, isStep⟩ := Option.isSome_iff_exists.mp isStep
  exact ⟨_, _, step, (List.dropLast_concat_getLast nonempty).symm, isStep⟩

theorem joinPieces_cons {rest : List (List Char)} (nonempty : rest ≠ []) (piece : List Char) :
    joinPieces (piece :: rest) = piece ++ '/' :: joinPieces rest := by
  obtain ⟨next, more, rfl⟩ := List.exists_cons_of_ne_nil nonempty
  rfl

theorem joinPieces_append {front back : List (List Char)} (nonempty : front ≠ [])
    (nonempty' : back ≠ []) : joinPieces (front ++ back) =
      joinPieces front ++ '/' :: joinPieces back := by
  induction front with
  | nil => exact absurd rfl nonempty
  | cons first rest ih =>
    cases rest with
    | nil =>
      rw [List.singleton_append, joinPieces_cons nonempty']
      rfl
    | cons next more =>
      have others : next :: more ≠ [] := List.cons_ne_nil next more
      rw [List.cons_append, joinPieces_cons (List.append_ne_nil_of_left_ne_nil others back),
        ih others, joinPieces_cons others, List.append_assoc, List.cons_append]

theorem joinPieces_concat {kept : List (List Char)} (nonempty : kept ≠ []) (last : List Char) :
    joinPieces (kept ++ [last]) = joinPieces kept ++ '/' :: last :=
  joinPieces_append nonempty (List.cons_ne_nil last [])

theorem getLast?_joinPieces (kept : List (List Char)) {last : List Char} (nonempty : last ≠ []) :
    (joinPieces (kept ++ [last])).getLast? = last.getLast? := by
  cases kept with
  | nil => rfl
  | cons first rest =>
    obtain ⟨c, more, rfl⟩ := List.exists_cons_of_ne_nil nonempty
    rw [joinPieces_concat (List.cons_ne_nil first rest), List.getLast?_append,
      List.getLast?_cons_cons, List.getLast?_cons]
    rfl

/-! What is in front of the pieces. -/

def frontText (front : Option Component) : String := (front.map Component.text).getD ""

theorem exists_cut (path : String) : ∃ rest, (cut path).2 = pieces rest ∧
    path.toList = (frontText (cut path).1).toList ++ rest := by
  unfold cut
  split
  case h_1 rest shape => exact ⟨rest, rfl, by simpa [frontText, Component.text] using shape⟩
  case h_2 shape => exact ⟨[], rfl, by simpa [frontText, Component.text] using shape⟩
  case h_3 rest shape => exact ⟨'/' :: rest, rfl, by simpa [frontText, Component.text] using shape⟩
  case h_4 => exact ⟨path.toList, rfl, rfl⟩

theorem getLast?_frontText (path : String) :
    frontText (cut path).1 = "/" ∨ (frontText (cut path).1).toList.getLast? ≠ some '/' := by
  unfold cut
  split
  case h_1 => exact .inl rfl
  case h_2 => exact .inr (by decide)
  case h_3 => exact .inr (by simp [frontText, Component.text])
  case h_4 => exact .inr (by simp [frontText])

/-! The directory around. -/

/-- The directory around the last step of a path: what is in front of the steps, and the pieces
before the last one that is a step. -/
theorem parent?_of_trimEnd {path : String} {before : List (List Char)} {last : List Char}
    (shape : trimEnd (cut path).2 = before ++ [last]) : parent? path =
      some (frontText (cut path).1 ++ String.ofList (joinPieces (trimEnd before))) := by
  rw [parent?]
  simp [shape, frontText]

/-- The path of a directory that is not written with a slash at its end unless it is the top. -/
def IsFolder (path : String) : Prop := path = "/" ∨ path.toList.getLast? ≠ some '/'

theorem isFolder_of_parent? {path folder : String} (outer : parent? path = some folder) :
    IsFolder folder := by
  cases shape : (trimEnd (cut path).2).reverse with
  | nil =>
    rw [parent?] at outer
    simp only [shape] at outer
    split at outer
    case h_1 =>
      obtain rfl := Option.some.inj outer
      exact .inr (by decide)
    case h_2 => cases outer
  | cons last before =>
    rw [List.reverse_eq_cons_iff] at shape
    obtain rfl := Option.some.inj ((parent?_of_trimEnd shape).symm.trans outer)
    by_cases empty : trimEnd before.reverse = []
    case pos =>
      rw [empty]
      simpa [IsFolder, joinPieces] using getLast?_frontText path
    case neg =>
      obtain ⟨rest, same, -⟩ := exists_cut path
      obtain ⟨kept, piece, step, kept_, isStep⟩ := exists_trimEnd_concat empty
      have nonempty : piece ≠ [] := by
        rintro rfl
        cases isStep
      have among : piece ∈ pieces rest := by
        rw [← same]
        apply (trimEnd_front _).subset
        rw [shape]
        apply List.mem_append_left
        apply (trimEnd_front _).subset
        rw [kept_]
        exact List.mem_append_right kept (List.mem_singleton_self piece)
      refine .inr fun slash => noSlash_pieces rest piece among ?_
      rw [kept_, String.toList_append, String.toList_ofList, List.getLast?_append,
        getLast?_joinPieces kept nonempty] at slash
      rw [List.getLast?_eq_some_getLast nonempty, Option.some_or] at slash
      rw [← Option.some.inj slash]
      exact List.getLast_mem nonempty

end DesignLink.Path
