import DesignLink.Proofs.Disk.Steps
import DesignLink.Proofs.Project.Requests

/-!
Where imports of new files lead. A specifier is resolved by its text alone: from the directory of the
new file a step upwards leaves the last directory named, unless there is none.
-/

namespace DesignLink

namespace Path

/-! Ways without detours. -/

/-- One step on from a way without detours. Above its first directory a relative way goes on
upwards; the top is above itself. -/
def advance (reached : List Component) : Component → List Component
  | .root => [.root]
  | .here => reached
  | .up =>
    match reached.getLast? with
    | some (.name _) => reached.dropLast
    | some .root => reached
    | _ => reached ++ [.up]
  | .name text => reached ++ [.name text]

/-- A way without its detours. -/
def straighten (way : List Component) : List Component := way.foldl advance []

theorem advance_name_up (reached : List Component) (name : String) :
    advance (advance reached (.name name)) .up = reached := by
  simp [advance]

theorem foldl_advance_names_ups (names : List String) : ∀ reached : List Component,
    (names.map Component.name ++ List.replicate names.length Component.up).foldl advance reached =
      reached := by
  induction names with
  | nil => exact fun _ => rfl
  | cons name names ih =>
    intro reached
    have ups : List.replicate (names.length + 1) Component.up =
        List.replicate names.length .up ++ [.up] := List.replicate_succ'
    rw [List.map_cons, List.length_cons, ups, List.cons_append, List.foldl_cons,
      ← List.append_assoc, List.foldl_append, ih]
    exact advance_name_up reached name

/-! The components of a path. -/

theorem way_eq_cut (path : String) : way path = start path ++ stepPieces (cut path).2 := by
  have whole := @way_withPieces path _ List.prefix_rfl
  rwa [withPieces_cut] at whole

def leadingDot (path : String) : List Component :=
  if (cut path).1 = some .here then [.here] else []

theorem components_eq (path : String) : components path = leadingDot path ++ way path := by
  have front : (cut path).1.toList = leadingDot path ++ start path := by
    unfold leadingDot
    rcases cut_cases path with ⟨rest, absolute, shape⟩ | ⟨more, dot, shape⟩ | ⟨relative, shape⟩
    · rw [shape, start_of_slash absolute]
      rfl
    · rw [shape, start_of_other (by simp [dot])]
      rfl
    · rw [shape, start_of_other relative]
      rfl
  rw [way_eq_cut, ← List.append_assoc, ← front]
  rfl

theorem filter_components (path : String) : (components path).filter (· ≠ .here) = way path := by
  have noDot : (leadingDot path).filter (· ≠ .here) = [] := by
    unfold leadingDot
    split
    · rfl
    · rfl
  rw [components_eq, List.filter_append, noDot, List.nil_append, way, List.filter_filter]
  simp only [Bool.and_self]

/-! The end of a file's path. -/

theorem ofPiece?_text {piece : List Char} {step : Component}
    (isStep : Component.ofPiece? piece = some step) : step.text.toList = piece := by
  unfold Component.ofPiece? at isStep
  split_ifs at isStep with noStep up
  · obtain rfl := Option.some.inj isStep
    rw [up]
    rfl
  · obtain rfl := Option.some.inj isStep
    exact String.toList_ofList

theorem start_congr {path path' : String} (same : path.toList.head? = path'.toList.head?) :
    start path = start path' := by
  rw [start, start, isAbsolute, isAbsolute, same]

theorem way_withPieces_concat {path : String} {before : List (List Char)} {last piece : List Char}
    {step : Component} (front : before ++ [last] <+: (cut path).2)
    (isStep : Component.ofPiece? last = some step) (noSlash : '/' ∉ piece) :
    way (withPieces path (before ++ [piece])) = start path ++ stepPieces (before ++ [piece]) := by
  have text := toList_withPieces path (before ++ [piece])
  have alone : pieces piece = [piece] := pieces_of_noSlash noSlash
  by_cases empty : before = []
  case pos =>
    subst empty
    rw [List.nil_append] at text ⊢
    rw [way_eq]
    rcases cut_cases path with ⟨rest, absolute, shape⟩ | ⟨more, dot, shape⟩ | ⟨relative, shape⟩
    · have slash : (frontText (some .root)).toList = ['/'] := by decide
      rw [shape, slash] at text
      rw [start_of_slash text, start_of_slash absolute, text]
      change _ ++ stepPieces (pieces ('/' :: piece)) = _
      rw [pieces_slash, alone]
      rfl
    · rw [shape] at front
      obtain rfl : last = [] := (List.cons_prefix_cons.mp front).1
      cases isStep
    · have nothing : (frontText none).toList = [] := by decide
      rw [shape, nothing, List.nil_append] at text
      have noStart : piece.head? ≠ some '/' := fun slash => noSlash (List.mem_of_mem_head? slash)
      rw [start_of_other (by rwa [text]), start_of_other relative, text]
      exact congrArg stepPieces alone
  case neg =>
    -- Both texts go on behind the pieces before, so the ways differ in the last step alone.
    have text' := toList_withPieces path (before ++ [last])
    have alone' : pieces last = [last] := by
      apply pieces_of_noSlash
      exact noSlash_cut front last (by simp)
    have way' := way_withPieces front
    rw [joinPieces_concat empty, ← List.append_assoc] at text text'
    have start_ : start (withPieces path (before ++ [piece])) =
        start (withPieces path (before ++ [last])) := by
      apply start_congr
      rw [text, text']
      cases (frontText (cut path).1).toList ++ joinPieces before <;> rfl
    rw [way_eq, text', pieces_append, alone', stepPieces_append, ← List.append_assoc,
      stepPieces_append before, ← List.append_assoc] at way'
    have shared := List.append_cancel_right way'
    rw [way_eq, text, pieces_append, alone, stepPieces_append, ← List.append_assoc, start_, shared,
      stepPieces_append, List.append_assoc]

/-- The name of a path is its last piece that is a step, and the last step of its way. -/
theorem exists_of_fileName? {path name : String} (named : fileName? path = some name) :
    ∃ before last, trimEnd (cut path).2 = before ++ [last] ∧
      Component.ofPiece? last = some (.name name) ∧ (∀ piece ∈ before ++ [last], '/' ∉ piece) ∧
      way path = start path ++ stepPieces before ++ [.name name] := by
  have ends : (components path).getLast? = some (.name name) := by
    unfold fileName? at named
    split at named
    case h_1 text same =>
      obtain rfl := Option.some.inj named
      exact same
    case h_2 => cases named
  change ((cut path).1.toList ++ stepPieces (cut path).2).getLast? = _ at ends
  rw [← stepPieces_trimEnd] at ends
  by_cases empty : trimEnd (cut path).2 = []
  · rw [empty] at ends
    rcases cut_cases path with ⟨_, _, shape⟩ | ⟨_, _, shape⟩ | ⟨_, shape⟩
    all_goals
      rw [shape] at ends
      cases ends
  · obtain ⟨before, last, step, shape, isStep⟩ := exists_trimEnd_concat empty
    have step_ : stepPieces [last] = [step] := by simp [stepPieces, isStep]
    rw [shape, stepPieces_append, step_, ← List.append_assoc, List.getLast?_concat] at ends
    obtain rfl := Option.some.inj ends
    refine ⟨before, last, shape, isStep, noSlash_cut (shape ▸ trimEnd_front (cut path).2), ?_⟩
    rw [way_eq_cut, ← stepPieces_trimEnd, shape, stepPieces_append, step_, List.append_assoc]

/-! The way to a module. -/

/-- The way to the module of a file: the way to the file, without the extension of its name. -/
def moduleWay (file : String) : List Component :=
  match fileName? file with
  | none => way file
  | some name => (way file).dropLast ++ [.name (stem name)]

theorem stem_cases (name : String) : stem name = name ∨
    ∃ c before, stem name = String.ofList (c :: before) ∧ (c :: before) <+: name.toList := by
  unfold stem
  split
  case h_1 => exact .inl rfl
  case h_2 => exact .inl rfl
  case h_3 dot before nonempty shape =>
    right
    obtain ⟨c, rest, reversed⟩ := List.exists_cons_of_ne_nil
      (show before.reverse ≠ [] by simpa using nonempty)
    rw [reversed]
    refine ⟨c, rest, rfl, ?_⟩
    have dropped : name.toList.reverse.dropWhile (· ≠ '.') <:+ name.toList.reverse :=
      List.dropWhile_suffix _
    rw [shape] at dropped
    have back := List.reverse_prefix.mpr ((List.suffix_cons dot before).trans dropped)
    rwa [List.reverse_reverse, reversed] at back

theorem ofPiece?_stem {name : String} {piece : List Char}
    (isName : Component.ofPiece? piece = some (.name name))
    (isStem : stem name ≠ "." ∧ stem name ≠ "..") :
    Component.ofPiece? (stem name).toList = some (.name (stem name)) := by
  have text : name.toList = piece := ofPiece?_text isName
  have full : (stem name).toList ≠ [] := by
    rcases stem_cases name with same | ⟨c, before, same, -⟩
    · rw [same, text]
      rintro rfl
      cases isName
    · simp [same]
  have noDot : (stem name).toList ≠ ['.'] := fun dot =>
    isStem.1 (String.toList_inj.mp dot)
  have noDots : (stem name).toList ≠ ['.', '.'] := fun dots =>
    isStem.2 (String.toList_inj.mp dots)
  rw [Component.ofPiece?, if_neg (by simp [full, noDot]), if_neg noDots, String.ofList_toList]

theorem noSlash_stem {name : String} (noSlash : '/' ∉ name.toList) : '/' ∉ (stem name).toList := by
  rcases stem_cases name with same | ⟨c, before, same, front⟩
  · rwa [same]
  · rw [same, String.toList_ofList]
    exact fun member => noSlash (front.subset member)

theorem way_withoutExtension {file : String}
    (isStem : ∀ name ∈ fileName? file, stem name ≠ "." ∧ stem name ≠ "..") :
    way (withoutExtension file) = moduleWay file := by
  unfold moduleWay withoutExtension
  cases named : fileName? file with
  | none => rfl
  | some name =>
    obtain ⟨before, last, shape, isName, noSlash, way_⟩ := exists_of_fileName? named
    have reversed : (trimEnd (cut file).2).reverse = last :: before.reverse := by simp [shape]
    have front : before ++ [last] <+: (cut file).2 := shape ▸ trimEnd_front (cut file).2
    have noSlash' : '/' ∉ name.toList := ofPiece?_text isName ▸ noSlash last (by simp)
    have stem_ : stepPieces [(stem name).toList] = [.name (stem name)] := by
      simp [stepPieces, ofPiece?_stem isName (isStem name named)]
    dsimp only
    rw [reversed]
    dsimp only
    rw [List.reverse_reverse, way_, List.dropLast_concat]
    have replaced := way_withPieces_concat front isName (noSlash_stem noSlash')
    rwa [stepPieces_append, stem_, ← List.append_assoc] at replaced

/-! Steps as pieces of a text. -/

/-- A step that a piece of a path stands for. -/
def IsLink (step : Component) : Prop :=
  '/' ∉ step.text.toList ∧ Component.ofPiece? step.text.toList = some step

theorem isLink_up : IsLink .up := by
  unfold IsLink
  decide

theorem isLink_of_ofPiece? {piece : List Char} {step : Component} (noSlash : '/' ∉ piece)
    (isStep : Component.ofPiece? piece = some step) : IsLink step := by
  rw [IsLink, ofPiece?_text isStep]
  exact ⟨noSlash, isStep⟩

theorem isLink_of_mem {text : List Char} {step : Component}
    (member : step ∈ stepPieces (pieces text)) : IsLink step := by
  obtain ⟨piece, among, isStep⟩ := List.mem_filterMap.mp member
  exact isLink_of_ofPiece? (noSlash_pieces text piece among) isStep

theorem IsLink.cases {step : Component} (isLink : IsLink step) :
    step = .up ∨ ∃ name, step = .name name := by
  cases step with
  | up => exact .inl rfl
  | name name => exact .inr ⟨name, rfl⟩
  | root => cases isLink.2
  | here => cases isLink.2

theorem IsLink.ne_nil {step : Component} (isLink : IsLink step) : step.text.toList ≠ [] := by
  intro empty
  have isStep := isLink.2
  rw [empty] at isStep
  cases isStep

section Links

variable {links : List Component}

theorem exists_names_of_links (areLinks : ∀ step ∈ links, IsLink step) (noUp : .up ∉ links) :
    ∃ names : List String, links = names.map .name := by
  induction links with
  | nil => exact ⟨[], rfl⟩
  | cons step rest ih =>
    rw [List.mem_cons, not_or] at noUp
    obtain ⟨names, rfl⟩ := ih (fun other member => areLinks other (List.mem_cons_of_mem step member))
      noUp.2
    rcases (areLinks step List.mem_cons_self).cases with rfl | ⟨name, rfl⟩
    · exact absurd rfl noUp.1
    · exact ⟨name :: names, rfl⟩

theorem noSlash_links (areLinks : ∀ step ∈ links, IsLink step) :
    ∀ piece ∈ links.map (·.text.toList), '/' ∉ piece := by
  intro piece member
  obtain ⟨step, among, rfl⟩ := List.mem_map.mp member
  exact (areLinks step among).1

theorem stepPieces_links (areLinks : ∀ step ∈ links, IsLink step) :
    stepPieces (links.map (·.text.toList)) = links := by
  induction links with
  | nil => rfl
  | cons step rest ih =>
    have first := (areLinks step List.mem_cons_self).2
    have later := ih fun other member => areLinks other (List.mem_cons_of_mem step member)
    rw [stepPieces] at later
    rw [List.map_cons, stepPieces, List.filterMap_cons_some first, later]

def linkText (links : List Component) : String :=
  String.ofList (joinPieces (links.map (·.text.toList)))

theorem foldl_join (areLinks : ∀ step ∈ links, IsLink step) :
    links.foldl (fun path step => join path step.text) "" = linkText links := by
  induction links using List.reverseRecOn with
  | nil => rfl
  | append_singleton front last ih =>
    have isLink := areLinks last (by simp)
    have front_ := ih fun step member => areLinks step (List.mem_append_left [last] member)
    obtain ⟨c, more, shape⟩ := List.exists_cons_of_ne_nil isLink.ne_nil
    have relative : isAbsolute last.text = false := by
      have other : c ≠ '/' := by
        rintro rfl
        exact isLink.1 (by rw [shape]; exact List.mem_cons_self)
      simp [isAbsolute, shape, other]
    rw [List.foldl_append, List.foldl_cons, List.foldl_nil, front_, join_of_relative relative]
    rcases List.eq_nil_or_concat' front with rfl | ⟨before, next, rfl⟩
    · have empty : linkText [] = "" := rfl
      rw [empty, gap_empty, String.append_empty, String.empty_append, linkText]
      exact String.ofList_toList.symm
    · have isLink' := areLinks next (by simp)
      have ends : (linkText (before ++ [next])).toList.getLast? ≠ some '/' := by
        rw [linkText, String.toList_ofList, List.map_append, List.map_singleton,
          getLast?_joinPieces _ isLink'.ne_nil]
        exact fun slash => isLink'.1 (List.mem_of_getLast? slash)
      have nonempty : (linkText (before ++ [next])).isEmpty = false := by
        rw [Bool.eq_false_iff, ne_eq, String.isEmpty_iff, ← String.toList_eq_nil_iff, linkText,
          String.toList_ofList, List.map_append, List.map_singleton]
        intro empty
        have last_ := getLast?_joinPieces (before.map (·.text.toList)) isLink'.ne_nil
        rw [empty, List.getLast?_nil] at last_
        exact isLink'.ne_nil (List.getLast?_eq_none_iff.mp last_.symm)
      have between : gap (linkText (before ++ [next])) = "/" := if_neg (by simp [nonempty, ends])
      have pieces : (before ++ [next] ++ [last]).map (·.text.toList)
          = (before ++ [next]).map (·.text.toList) ++ [last.text.toList] := List.map_append
      rw [between, ← String.toList_inj, linkText, linkText, pieces, String.toList_ofList,
        joinPieces_concat (by simp)]
      simp

theorem isAbsolute_linkText (areLinks : ∀ step ∈ links, IsLink step) :
    isAbsolute (linkText links) = false := by
  rw [isAbsolute, linkText, String.toList_ofList]
  cases links with
  | nil => rfl
  | cons step rest =>
    have isLink := areLinks step List.mem_cons_self
    obtain ⟨c, more, shape⟩ := List.exists_cons_of_ne_nil isLink.ne_nil
    have first : (joinPieces ((step :: rest).map (·.text.toList))).head? = some c := by
      cases rest with
      | nil => simp [joinPieces, shape]
      | cons next others => simp [joinPieces, shape]
    have other : c ≠ '/' := by
      rintro rfl
      exact isLink.1 (by rw [shape]; exact List.mem_cons_self)
    rw [first]
    simp [other]

theorem way_linkText (areLinks : ∀ step ∈ links, IsLink step) : way (linkText links) = links := by
  rw [way_eq, start, isAbsolute_linkText areLinks, linkText, String.toList_ofList,
    stepPieces_joinPieces (noSlash_links areLinks), stepPieces_links areLinks]
  rfl

theorem mem_joinPieces {c : Char} : ∀ {pieces : List (List Char)}, c ∈ joinPieces pieces →
    c = '/' ∨ ∃ piece ∈ pieces, c ∈ piece
  | [], member => nomatch member
  | [piece], member => .inr ⟨piece, List.mem_cons_self, member⟩
  | piece :: next :: rest, member => by
    rw [joinPieces_cons (List.cons_ne_nil next rest), List.mem_append, List.mem_cons] at member
    rcases member with first | rfl | later
    · exact .inr ⟨piece, List.mem_cons_self, first⟩
    · exact .inl rfl
    · rcases mem_joinPieces later with slash | ⟨other, among, inside⟩
      · exact .inl slash
      · exact .inr ⟨other, List.mem_cons_of_mem piece among, inside⟩

end Links

/-! From a folder to a module. -/

/-- How many steps from the start the ways to a folder and to the module of a file share. -/
def shared (folder file : String) : Nat := commonLength (way folder) (moduleWay file)

/-- The steps from a folder to the module of a file: up to what their ways share, and down. -/
def linkSteps (folder file : String) : List Component :=
  List.replicate ((way folder).length - shared folder file) .up ++
    (moduleWay file).drop (shared folder file)

/-- A specifier can name the module of the file from the folder: behind what its way shares with the
file the folder goes nowhere up, and the rest of the file's way is made of names that are taken as
they are. -/
structure CanName (folder file : String) : Prop where
  noDetour : .up ∉ (way folder).drop (shared folder file)
  isStem : ∀ name ∈ fileName? file, stem name ≠ "." ∧ stem name ≠ ".."
  plain : ∀ step ∈ linkSteps folder file, ∀ c ∈ step.text.toList, Text.escapeChar '"' c = [c]
  noDots : ∀ name, (linkSteps folder file).head? = some (.name name) →
    ¬ ['.', '.'] <+: name.toList
  notParent : linkSteps folder file ≠ [.up]

theorem CanName.noBackslash {folder file : String} (canName : CanName folder file) :
    ∀ step ∈ linkSteps folder file, '\\' ∉ step.text.toList :=
  fun step member inside => absurd (canName.plain step member '\\' inside) (by decide)

theorem commonLength_append (front : List Component) : ∀ left right : List Component,
    commonLength (front ++ left) (front ++ right) = front.length + commonLength left right := by
  induction front with
  | nil => simp
  | cons step rest ih =>
    intro left right
    rw [List.cons_append, List.cons_append, commonLength, if_pos rfl, ih, List.length_cons]
    omega

theorem take_commonLength : ∀ left right : List Component,
    left.take (commonLength left right) = right.take (commonLength left right)
  | [], _ => by simp [commonLength]
  | _ :: _, [] => by simp [commonLength]
  | a :: left, b :: right => by
    rw [commonLength]
    by_cases same : a = b
    · rw [if_pos same, List.take_succ_cons, List.take_succ_cons, same, take_commonLength left right]
    · rw [if_neg same, List.take_zero, List.take_zero]

theorem exists_moduleWay {file : String}
    (isStem : ∀ name ∈ fileName? file, stem name ≠ "." ∧ stem name ≠ "..") :
    ∃ links, moduleWay file = start file ++ links ∧ ∀ step ∈ links, IsLink step := by
  unfold moduleWay
  cases named : fileName? file with
  | none => exact ⟨_, way_eq file, fun step member => isLink_of_mem member⟩
  | some name =>
    obtain ⟨before, last, shape, isName, noSlash, way_⟩ := exists_of_fileName? named
    have noSlash' : '/' ∉ name.toList := ofPiece?_text isName ▸ noSlash last (by simp)
    refine ⟨stepPieces before ++ [.name (stem name)], ?_, ?_⟩
    · dsimp only
      rw [way_, List.dropLast_concat, List.append_assoc]
    · intro step member
      rcases List.mem_append.mp member with among | own
      · obtain ⟨piece, inside, isStep⟩ := List.mem_filterMap.mp among
        exact isLink_of_ofPiece? (noSlash piece (List.mem_append_left _ inside)) isStep
      · obtain rfl := List.mem_singleton.mp own
        exact isLink_of_ofPiece? (noSlash_stem noSlash') (ofPiece?_stem isName (isStem name named))

theorem start_of_isAbsolute_eq {path path' : String} (alike : isAbsolute path = isAbsolute path') :
    start path = start path' := by
  rw [start, start, alike]

section Folder

variable {folder file : String}

/-- The ways to a folder and to a module share a way; from its end steps down lead to the folder, and
other steps to the module. -/
theorem exists_fork (alike : isAbsolute folder = isAbsolute file)
    (isStem : ∀ name ∈ fileName? file, stem name ≠ "." ∧ stem name ≠ "..") :
    ∃ front down links, way folder = front ++ down ∧ moduleWay file = front ++ links ∧
      (way folder).drop (shared folder file) = down ∧
      linkSteps folder file = List.replicate down.length .up ++ links ∧
      (∀ step ∈ down, IsLink step) ∧ ∀ step ∈ links, IsLink step := by
  obtain ⟨links, module_, areLinks⟩ := exists_moduleWay isStem
  have folder_ := way_eq folder
  have same := start_of_isAbsolute_eq alike
  rw [← same] at module_
  generalize shape : stepPieces (pieces folder.toList) = down at folder_
  have areDown : ∀ step ∈ down, IsLink step := by
    rintro step member
    rw [← shape] at member
    exact isLink_of_mem member
  have count : shared folder file = (start folder).length + commonLength down links := by
    rw [shared, folder_, module_, commonLength_append]
  have back : (start folder ++ down).drop (shared folder file) =
      down.drop (commonLength down links) := by rw [count, List.drop_length_add_append]
  have back' : (start folder ++ links).drop (shared folder file) =
      links.drop (commonLength down links) := by rw [count, List.drop_length_add_append]
  refine ⟨start folder ++ down.take (commonLength down links),
    down.drop (commonLength down links), links.drop (commonLength down links), ?_, ?_, ?_, ?_, ?_,
    ?_⟩
  · rw [folder_, List.append_assoc, List.take_append_drop]
  · rw [module_, List.append_assoc, take_commonLength, List.take_append_drop]
  · rw [folder_, back]
  · rw [linkSteps, folder_, module_, back', ← back, List.length_drop]
  · exact fun step member => areDown step (List.mem_of_mem_drop member)
  · exact fun step member => areLinks step (List.mem_of_mem_drop member)

theorem isLink_linkSteps (alike : isAbsolute folder = isAbsolute file)
    (isStem : ∀ name ∈ fileName? file, stem name ≠ "." ∧ stem name ≠ "..") :
    ∀ step ∈ linkSteps folder file, IsLink step := by
  obtain ⟨front, down, links, -, -, -, steps, -, areLinks⟩ := exists_fork alike isStem
  intro step member
  rw [steps] at member
  rcases List.mem_append.mp member with up | among
  · rw [List.eq_of_mem_replicate up]
    exact isLink_up
  · exact areLinks step among

/-- Taken from a folder that goes nowhere up behind what its way shares with the file, the steps lead
to the module. -/
theorem straighten_linkSteps_of_noDetour (alike : isAbsolute folder = isAbsolute file)
    (isStem : ∀ name ∈ fileName? file, stem name ≠ "." ∧ stem name ≠ "..")
    (noDetour : .up ∉ (way folder).drop (shared folder file)) :
    straighten (way folder ++ linkSteps folder file) = straighten (moduleWay file) := by
  obtain ⟨front, down, links, folder_, module_, down_, steps, areDown, -⟩ :=
    exists_fork alike isStem
  rw [down_] at noDetour
  obtain ⟨names, rfl⟩ := exists_names_of_links areDown noDetour
  have back := foldl_advance_names_ups names (front.foldl advance [])
  rw [folder_, module_, steps, List.length_map, straighten, straighten, List.append_assoc,
    ← List.append_assoc (names.map _), List.foldl_append, List.foldl_append, back,
    List.foldl_append]

theorem straighten_linkSteps (alike : isAbsolute folder = isAbsolute file)
    (canName : CanName folder file) :
    straighten (way folder ++ linkSteps folder file) = straighten (moduleWay file) :=
  straighten_linkSteps_of_noDetour alike canName.isStem canName.noDetour

/-- The specifier is the text of the steps, with a dot in front unless it leads up. -/
theorem importSpecifier_eq (alike : isAbsolute folder = isAbsolute file)
    (isStem : ∀ name ∈ fileName? file, stem name ≠ "." ∧ stem name ≠ "..")
    (noBackslash : ∀ step ∈ linkSteps folder file, '\\' ∉ step.text.toList) :
    importSpecifier folder file =
      if ['.', '.'] <+: (linkText (linkSteps folder file)).toList then
        linkText (linkSteps folder file)
      else "./" ++ linkText (linkSteps folder file) := by
  have areLinks := isLink_linkSteps alike isStem
  have plain : String.ofList ((linkText (linkSteps folder file)).toList.map fun c =>
      if c = '\\' then '/' else c) = linkText (linkSteps folder file) := by
    have same : ∀ c ∈ (linkText (linkSteps folder file)).toList,
        (if c = '\\' then '/' else c) = c := by
      intro c member
      rw [linkText, String.toList_ofList] at member
      refine if_neg ?_
      rintro rfl
      rcases mem_joinPieces member with slash | ⟨piece, among, inside⟩
      · cases slash
      · obtain ⟨step, own, rfl⟩ := List.mem_map.mp among
        exact absurd inside (noBackslash step own)
    rw [List.map_congr_left same, List.map_id', String.ofList_toList]
  have steps : List.replicate ((way folder).length - commonLength (way folder) (moduleWay file))
      Component.up ++ (moduleWay file).drop (commonLength (way folder) (moduleWay file)) =
      linkSteps folder file := rfl
  unfold importSpecifier
  simp only [filter_components, way_withoutExtension isStem, steps, foldl_join areLinks,
    plain, List.isPrefixOf_iff_prefix]

theorem way_importSpecifier_of_noBackslash (alike : isAbsolute folder = isAbsolute file)
    (isStem : ∀ name ∈ fileName? file, stem name ≠ "." ∧ stem name ≠ "..")
    (noBackslash : ∀ step ∈ linkSteps folder file, '\\' ∉ step.text.toList) :
    way (importSpecifier folder file) = linkSteps folder file := by
  have areLinks := isLink_linkSteps alike isStem
  have way_ := way_linkText areLinks
  rw [importSpecifier_eq alike isStem noBackslash]
  split
  case isTrue => exact way_
  case isFalse =>
    have relative := isAbsolute_linkText areLinks
    have here : way "." = [] := by decide
    have between : gap "." = "/" := by decide
    have dotted : "./" ++ linkText (linkSteps folder file) =
        join "." (linkText (linkSteps folder file)) := by
      rw [join_of_relative relative, between]
      rfl
    rw [dotted, way_join "." relative, here, List.nil_append, way_]

theorem way_importSpecifier (alike : isAbsolute folder = isAbsolute file)
    (canName : CanName folder file) :
    way (importSpecifier folder file) = linkSteps folder file :=
  way_importSpecifier_of_noBackslash alike canName.isStem canName.noBackslash

theorem escape_importSpecifier (alike : isAbsolute folder = isAbsolute file)
    (canName : CanName folder file) :
    Text.escape '"' (importSpecifier folder file) = importSpecifier folder file := by
  have same : ∀ text : List Char, (∀ c ∈ text, Text.escapeChar '"' c = [c]) →
      Text.escapeChars '"' text = text := by
    intro text
    induction text with
    | nil => exact fun _ => rfl
    | cons c text ih =>
      intro plain
      rw [Text.escapeChars, plain c List.mem_cons_self,
        ih fun other member => plain other (List.mem_cons_of_mem c member)]
      rfl
  have link : ∀ c ∈ (linkText (linkSteps folder file)).toList, Text.escapeChar '"' c = [c] := by
    intro c member
    rw [linkText, String.toList_ofList] at member
    rcases mem_joinPieces member with rfl | ⟨piece, among, inside⟩
    · decide
    · obtain ⟨step, own, rfl⟩ := List.mem_map.mp among
      exact canName.plain step own c inside
  rw [Text.escape, same, String.ofList_toList]
  rw [importSpecifier_eq alike canName.isStem canName.noBackslash]
  split
  case isTrue => exact link
  case isFalse =>
    intro c member
    have dot : "./".toList = ['.', '/'] := by decide
    rw [String.toList_append, dot, List.cons_append, List.singleton_append, List.mem_cons,
      List.mem_cons] at member
    rcases member with rfl | rfl | later
    · decide
    · decide
    · exact link c later

theorem starts_importSpecifier (alike : isAbsolute folder = isAbsolute file)
    (canName : CanName folder file) : ['.', '/'] <+: (importSpecifier folder file).toList ∨
      ['.', '.', '/'] <+: (importSpecifier folder file).toList := by
  have areLinks := isLink_linkSteps alike canName.isStem
  rw [importSpecifier_eq alike canName.isStem canName.noBackslash]
  split
  case isFalse => exact .inl ⟨(linkText (linkSteps folder file)).toList, by simp⟩
  case isTrue dots =>
    right
    have notParent := canName.notParent
    have noDots := canName.noDots
    generalize linkSteps folder file = links at *
    rw [linkText, String.toList_ofList] at dots ⊢
    cases links with
    | nil => cases dots with | intro _ same => cases same
    | cons step rest =>
      have isLink := areLinks step List.mem_cons_self
      rcases isLink.cases with rfl | ⟨name, rfl⟩
      · cases rest with
        | nil => exact absurd rfl notParent
        | cons next others => exact ⟨_, rfl⟩
      · exfalso
        apply noDots name rfl
        have filled : name.toList ≠ [] := isLink.ne_nil
        have noDot : name.toList ≠ ['.'] := by
          intro dot
          have isStep : Component.ofPiece? name.toList = some (.name name) := isLink.2
          rw [dot] at isStep
          cases isStep
        have whole : ∃ more, joinPieces ((Component.name name :: rest).map (·.text.toList)) =
            name.toList ++ more ∧ ∀ c ∈ more.head?, c = '/' := by
          cases rest with
          | nil => exact ⟨[], by simp [joinPieces, Component.text], nofun⟩
          | cons next others => exact ⟨_, rfl, by rintro c ⟨⟩; rfl⟩
        obtain ⟨more, text, slash⟩ := whole
        rw [text] at dots
        rcases shape : name.toList with _ | ⟨c, _ | ⟨d, others⟩⟩
        · exact absurd shape filled
        · rw [shape, List.singleton_append, List.cons_prefix_cons] at dots
          obtain ⟨rfl, -⟩ := dots
          exact absurd shape noDot
        · rw [shape, List.cons_append, List.cons_append, List.cons_prefix_cons,
            List.cons_prefix_cons] at dots
          obtain ⟨rfl, rfl, -⟩ := dots
          exact ⟨others, rfl⟩

end Folder

end Path

/-! The import of a new file. -/

namespace MultiRequest

variable {r : MultiRequest}

theorem exists_importLine (importable : ∃ l ∈ r.links, (l.importedName r.name).isSome = true)
    (specifier : String) : ∃ names, importLine r.defaultImport r.namedImports specifier =
      some ("import " ++ names ++ " from \"" ++ specifier ++ "\"") := by
  obtain ⟨l, among, isSome⟩ := importable
  rw [Link.importedName] at isSome
  cases default_ : r.defaultImport with
  | some name =>
    unfold importLine
    split <;> exact ⟨_, rfl⟩
  | none =>
    have notDefault : ¬ l.sourceExport = "default" := by
      intro isDefault
      have any : (r.links.any fun l => l.sourceExport = "default") = true :=
        List.any_eq_true.mpr ⟨l, among, by simp [isDefault]⟩
      rw [defaultImport, if_pos any] at default_
      cases default_
    rw [if_neg notDefault] at isSome
    have isIdentifier : Text.isIdentifier l.sourceExport = true := by
      by_contra no
      rw [if_neg no] at isSome
      cases isSome
    have named : l.sourceExport ∈ r.namedImports := by
      rw [namedImports, List.mem_eraseDups, List.mem_filter]
      exact ⟨List.mem_map_of_mem among, by simp [notDefault, isIdentifier]⟩
    obtain ⟨name, names, shape⟩ := List.exists_cons_of_ne_nil (List.ne_nil_of_mem named)
    rw [shape]
    exact ⟨_, rfl⟩

theorem exists_fileText (importable : ∃ l ∈ r.links, (l.importedName r.name).isSome = true)
    (directory : String) : ∃ names rest, r.fileText directory =
      "import figma from \"@figma/code-connect\"\n" ++
        ("import " ++ names ++ " from \"" ++ r.importPath directory ++ "\"\n") ++ rest := by
  have text : r.fileText directory = connectionFileText
      (importLine r.defaultImport r.namedImports (r.importPath directory)).toList
      (r.links.map (·.connection r.name)) := rfl
  have closed : "\"" ++ "\n" = "\"\n" := by decide
  obtain ⟨names, line⟩ := exists_importLine importable (r.importPath directory)
  refine ⟨names, String.join ((r.links.map (·.connection r.name)).map fun c => "\n" ++ c.print),
    ?_⟩
  rw [text, line]
  unfold connectionFileText
  rw [Option.toList_some, List.map_singleton, String.join, List.foldl_cons, List.foldl_nil,
    String.empty_append, @String.append_assoc _ "\"" "\n", closed]

/-- The file of a request that imports an export imports it under a string that is relative and leads
from the directory of the new file to the module of the source file, if a specifier can name that
module. -/
theorem importPath_leads (r : MultiRequest) (directory : String)
    (importable : ∃ l ∈ r.links, (l.importedName r.name).isSome = true)
    (alike : Path.isAbsolute (Path.join directory r.destination) =
      Path.isAbsolute (Path.join directory r.source))
    (canName : Path.CanName (Path.join directory r.destination) (Path.join directory r.source)) :
    (∃ names rest, r.fileText directory = "import figma from \"@figma/code-connect\"\n" ++
      ("import " ++ names ++ " from " ++ Text.quoted (r.importPath directory) ++ "\n") ++ rest) ∧
    (['.', '/'] <+: (r.importPath directory).toList ∨
      ['.', '.', '/'] <+: (r.importPath directory).toList) ∧
    Path.straighten (Path.way (Path.join directory r.destination) ++
        Path.way (r.importPath directory)) =
      Path.straighten (Path.moduleWay (Path.join directory r.source)) := by
  refine ⟨?_, Path.starts_importSpecifier alike canName, ?_⟩
  · obtain ⟨names, rest, text⟩ := exists_fileText importable directory
    have quoted : Text.quoted (r.importPath directory) =
        "\"" ++ r.importPath directory ++ "\"" := by
      unfold Text.quoted importPath
      rw [Path.escape_importSpecifier alike canName]
    have opened : " from " ++ "\"" = " from \"" := by decide
    have closed : "\"" ++ "\n" = "\"\n" := by decide
    refine ⟨names, rest, ?_⟩
    rw [text, quoted]
    simp only [← opened, ← closed, String.append_assoc]
  · unfold importPath
    rw [Path.way_importSpecifier alike canName]
    exact Path.straighten_linkSteps alike canName

def oneExport (destination source : String) : MultiRequest :=
  ⟨.create, destination, source, "Card",
    [⟨"default", none, none, ⟨"1:2", "", "", none, none, none⟩⟩], .standard⟩

/-- A card beside the directory of its new file, in a project that is beside the current one. -/
def card : MultiRequest := oneExport "app/links/new" "./app//ui/../Card.v2.tsx"

theorem importPath_leads_card :
    (∃ l ∈ card.links, (l.importedName card.name).isSome = true) ∧
    Path.isAbsolute (Path.join "../work" card.destination) =
      Path.isAbsolute (Path.join "../work" card.source) ∧
    Path.CanName (Path.join "../work" card.destination) (Path.join "../work" card.source) ∧
    card.importPath "../work" = "../../ui/../Card.v2" ∧
    (∃ names rest, card.fileText "../work" = "import figma from \"@figma/code-connect\"\n" ++
      ("import " ++ names ++ " from " ++ Text.quoted (card.importPath "../work") ++ "\n") ++ rest) ∧
    (['.', '/'] <+: (card.importPath "../work").toList ∨
      ['.', '.', '/'] <+: (card.importPath "../work").toList) ∧
    Path.straighten (Path.way (Path.join "../work" card.destination) ++
        Path.way (card.importPath "../work")) =
      Path.straighten (Path.moduleWay (Path.join "../work" card.source)) := by
  have importable : ∃ l ∈ card.links, (l.importedName card.name).isSome = true :=
    ⟨_, List.mem_cons_self, rfl⟩
  have alike : Path.isAbsolute (Path.join "../work" card.destination) =
      Path.isAbsolute (Path.join "../work" card.source) := by decide
  have steps : (Path.linkSteps (Path.join "../work" card.destination)
      (Path.join "../work" card.source)).head? = some .up := by decide
  have plain : ((Path.linkSteps (Path.join "../work" card.destination)
      (Path.join "../work" card.source)).all fun step =>
        step.text.toList.all fun c => Text.escapeChar '"' c = [c]) = true := by decide
  have canName : Path.CanName (Path.join "../work" card.destination)
      (Path.join "../work" card.source) :=
    { noDetour := by decide
      isStem := by decide
      plain := by simpa using plain
      noDots := fun name named => nomatch steps.symm.trans named
      notParent := by decide }
  exact ⟨importable, alike, canName, by decide,
    importPath_leads card "../work" importable alike canName⟩

/-- A directory with a detour is left by too many steps: from `a/../b` the specifier of `b/Card.tsx`
is `../../../b/Card`, which leads above the project. -/
theorem importPath_detour : ¬ ∀ (r : MultiRequest) (directory : String),
    (∃ l ∈ r.links, (l.importedName r.name).isSome = true) →
    Path.isAbsolute (Path.join directory r.destination) =
      Path.isAbsolute (Path.join directory r.source) →
    Path.straighten (Path.way (Path.join directory r.destination) ++
        Path.way (r.importPath directory)) =
      Path.straighten (Path.moduleWay (Path.join directory r.source)) := by
  intro all
  have leads := all (oneExport "a/../b" "b/Card.tsx") "" ⟨_, List.mem_cons_self, rfl⟩ (by decide)
  exact absurd leads (by decide)

end MultiRequest

end DesignLink
