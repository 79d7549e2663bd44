import DesignLink.Proofs.Project.Specifiers

/-!
Specifiers taken back to paths. Where neither the folder nor the file has a step upwards in its
path, the specifier of the file leads from the folder to the very steps of the file, with the
extension of its name removed. Main statement: `importSpecifier_resolves`.
-/

namespace DesignLink.Path

/-! Ways without steps upwards have no detours. -/

theorem foldl_advance_names (names : List String) : ∀ reached : List Component,
    (names.map Component.name).foldl advance reached = reached ++ names.map .name := by
  induction names with
  | nil => exact fun reached => (List.append_nil reached).symm
  | cons name names ih =>
    intro reached
    rw [List.map_cons, List.foldl_cons, ih, advance, List.append_assoc, List.singleton_append]

theorem straighten_names (path : String) (names : List String) :
    straighten (start path ++ names.map .name) = start path ++ names.map .name := by
  have begins : (start path).foldl advance [] = start path := by
    rw [start]
    split <;> rfl
  rw [straighten, List.foldl_append, begins, foldl_advance_names]

theorem foldl_advance_filter (steps : List Component) : ∀ reached : List Component,
    (steps.filter (· ≠ .here)).foldl advance reached = steps.foldl advance reached := by
  induction steps with
  | nil => exact fun _ => rfl
  | cons step steps ih =>
    intro reached
    by_cases dot : step = .here
    · subst dot
      rw [List.filter_cons_of_neg (by decide), ih, List.foldl_cons, advance]
    · rw [List.filter_cons_of_pos (by simpa using dot), List.foldl_cons, List.foldl_cons, ih]

theorem straighten_way {path : String} (noUp : .up ∉ way path) :
    straighten (way path) = way path := by
  obtain ⟨names, shape⟩ := exists_names noUp
  rw [shape, straighten_names]

/-! Steps are written in the path that they are steps of. -/

theorem mem_joinPieces_of_mem {c : Char} {piece : List Char} (inside : c ∈ piece) :
    ∀ {pieces : List (List Char)}, piece ∈ pieces → c ∈ joinPieces pieces
  | [only], member => by
    rw [List.mem_singleton.mp member] at inside
    exact inside
  | first :: next :: rest, member => by
    rw [joinPieces_cons (List.cons_ne_nil next rest), List.mem_append, List.mem_cons]
    rcases List.mem_cons.mp member with rfl | later
    · exact .inl inside
    · exact .inr (.inr (mem_joinPieces_of_mem inside later))

theorem mem_of_mem_way {path : String} {step : Component} {c : Char} (member : step ∈ way path)
    (inside : c ∈ step.text.toList) (noSlash : c ≠ '/') : c ∈ path.toList := by
  rw [way_eq, List.mem_append] at member
  rcases member with top | among
  · rw [start] at top
    split at top
    case isTrue =>
      rw [List.mem_singleton.mp top] at inside
      exact absurd (List.mem_singleton.mp inside) noSlash
    case isFalse => cases top
  · obtain ⟨piece, own, isStep⟩ := List.mem_filterMap.mp among
    rw [ofPiece?_text isStep] at inside
    have written := mem_joinPieces_of_mem inside own
    rwa [joinPieces_pieces] at written

theorem mem_of_mem_moduleWay {file : String} {step : Component} {c : Char}
    (member : step ∈ moduleWay file) (inside : c ∈ step.text.toList) (noSlash : c ≠ '/') :
    c ∈ file.toList := by
  unfold moduleWay at member
  split at member
  case h_1 => exact mem_of_mem_way member inside noSlash
  case h_2 name named =>
    obtain ⟨before, last, -, -, -, way_⟩ := exists_of_fileName? named
    rcases List.mem_append.mp member with among | own
    · exact mem_of_mem_way (List.dropLast_subset _ among) inside noSlash
    · rw [List.mem_singleton.mp own] at inside
      have named_ : Component.name name ∈ way file := by
        rw [way_]
        exact List.mem_append_right _ (List.mem_singleton_self _)
      apply mem_of_mem_way named_ _ noSlash
      rcases stem_cases name with same | ⟨d, front, same, prefix_⟩
      · rwa [same] at inside
      · apply prefix_.subset
        rwa [Component.text, same, String.toList_ofList] at inside

theorem noBackslash_linkSteps {file : String} (folder : String)
    (noBackslash : '\\' ∉ file.toList) :
    ∀ step ∈ linkSteps folder file, '\\' ∉ step.text.toList := by
  intro step member inside
  rcases List.mem_append.mp member with up | down
  · rw [List.eq_of_mem_replicate up] at inside
    exact absurd inside (by decide)
  · exact noBackslash (mem_of_mem_moduleWay (List.mem_of_mem_drop down) inside (by decide))

/-! Specifiers. -/

theorem straighten_moduleWay {file : String}
    (isStem : ∀ name ∈ fileName? file, stem name ≠ "." ∧ stem name ≠ "..")
    (noUp : .up ∉ way file) : straighten (moduleWay file) = moduleWay file := by
  obtain ⟨links, module_, areLinks⟩ := exists_moduleWay isStem
  have noUp' : .up ∉ moduleWay file := by
    unfold moduleWay
    split
    case h_1 => exact noUp
    case h_2 =>
      intro up
      rcases List.mem_append.mp up with among | own
      · exact noUp (List.dropLast_subset _ among)
      · cases List.mem_singleton.mp own
  rw [module_] at noUp' ⊢
  obtain ⟨names, rfl⟩ := exists_names_of_links areLinks fun up =>
    noUp' (List.mem_append_right (start file) up)
  exact straighten_names file names

/-- Where neither path has a step upwards, the specifier of a file leads, step by step from the
folder, to the steps of the file with the extension of its name removed: a step upwards leaves the
last step, and a dot is none. -/
theorem importSpecifier_resolves {folder file name : String}
    (alike : isAbsolute folder = isAbsolute file)
    (noUp : .up ∉ components folder) (noUp' : .up ∉ components file)
    (noBackslash : '\\' ∉ file.toList) (named : fileName? file = some name)
    (isStem : stem name ≠ "." ∧ stem name ≠ "..") :
    (components (importSpecifier folder file)).foldl advance
        ((components folder).filter (· ≠ .here)) =
      (components (withoutExtension file)).filter (· ≠ .here) ∧
    (components (withoutExtension file)).filter (· ≠ .here) =
      ((components file).filter (· ≠ .here)).dropLast ++ [.name (stem name)] := by
  have isStem' : ∀ name' ∈ fileName? file, stem name' ≠ "." ∧ stem name' ≠ ".." := by
    intro name' same
    rw [Option.some.inj (same.symm.trans named)]
    exact isStem
  have noWayUp : .up ∉ way folder := by
    rw [← filter_components]
    exact fun up => noUp (List.mem_filter.mp up).1
  have noWayUp' : .up ∉ way file := by
    rw [← filter_components]
    exact fun up => noUp' (List.mem_filter.mp up).1
  have module_ : moduleWay file = (way file).dropLast ++ [.name (stem name)] := by
    rw [moduleWay, named]
  rw [← foldl_advance_filter]
  simp only [filter_components]
  rw [way_withoutExtension isStem', ← module_]
  refine ⟨?_, rfl⟩
  calc (way (importSpecifier folder file)).foldl advance (way folder)
      = (linkSteps folder file).foldl advance (way folder) := by
        rw [way_importSpecifier_of_noBackslash alike isStem'
          (noBackslash_linkSteps folder noBackslash)]
    _ = straighten (way folder ++ linkSteps folder file) := by
        conv_lhs => rw [← straighten_way noWayUp]
        rw [straighten, straighten, List.foldl_append]
    _ = straighten (moduleWay file) :=
        straighten_linkSteps_of_noDetour alike isStem' fun up =>
          noWayUp (List.mem_of_mem_drop up)
    _ = moduleWay file := straighten_moduleWay isStem' noWayUp'

/-- From an absolute folder, over dots and repeated slashes, to a file with two dots in its name. -/
theorem importSpecifier_resolves_card :
    isAbsolute "/app/./src//links" = isAbsolute "/app/src/ui/..Card.v2.tsx" ∧
    .up ∉ components "/app/./src//links" ∧ .up ∉ components "/app/src/ui/..Card.v2.tsx" ∧
    '\\' ∉ "/app/src/ui/..Card.v2.tsx".toList ∧
    fileName? "/app/src/ui/..Card.v2.tsx" = some "..Card.v2.tsx" ∧
    (stem "..Card.v2.tsx" ≠ "." ∧ stem "..Card.v2.tsx" ≠ "..") ∧
    importSpecifier "/app/./src//links" "/app/src/ui/..Card.v2.tsx" = "../ui/..Card.v2" ∧
    (components (importSpecifier "/app/./src//links" "/app/src/ui/..Card.v2.tsx")).foldl advance
        ((components "/app/./src//links").filter (· ≠ .here)) =
      [.root, .name "app", .name "src", .name "ui", .name "..Card.v2"] := by
  have alike : isAbsolute "/app/./src//links" = isAbsolute "/app/src/ui/..Card.v2.tsx" := by decide
  have noUp : .up ∉ components "/app/./src//links" := by decide
  have noUp' : .up ∉ components "/app/src/ui/..Card.v2.tsx" := by decide
  have noBackslash : '\\' ∉ "/app/src/ui/..Card.v2.tsx".toList := by decide
  have named : fileName? "/app/src/ui/..Card.v2.tsx" = some "..Card.v2.tsx" := by decide
  have isStem : stem "..Card.v2.tsx" ≠ "." ∧ stem "..Card.v2.tsx" ≠ ".." := by decide
  have steps : ((components "/app/src/ui/..Card.v2.tsx").filter (· ≠ .here)).dropLast ++
      [.name (stem "..Card.v2.tsx")] =
        [.root, .name "app", .name "src", .name "ui", .name "..Card.v2"] := by decide
  obtain ⟨leads, shape⟩ := importSpecifier_resolves alike noUp noUp' noBackslash named isStem
  exact ⟨alike, noUp, noUp', noBackslash, named, isStem, by decide, leads.trans (shape.trans steps)⟩

end DesignLink.Path
