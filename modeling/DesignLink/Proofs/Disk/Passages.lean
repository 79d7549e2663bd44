import DesignLink.Disk.Resolve
import DesignLink.Proofs.Disk.Placing
import DesignLink.Proofs.Disk.Steps

/-!
Ways through trees without links. Such a way leads through directories up to the last name; what can
end it before is a name that is too long, a file, or an entry that is missing. Directories can be
made for missing entries, so the names and the files are all that is in the way of new directories.
-/

namespace DesignLink

namespace FileTree

def NoLinks (tree : FileTree) : Prop := ∀ place, tree.kindAt place ≠ some .link

/-- Where steps lead if no link is met. -/
def track (tree : FileTree) : Place → List Path.Component → Except DiskError Place :=
  tree.walk true fun _ _ => .error .tooManyLinks

/-- The directory that steps through directories lead to. -/
def through (tree : FileTree) : Place → List Path.Component → Option Place
  | place, [] => some place
  | _, .root :: rest => tree.through [] rest
  | place, .here :: rest => tree.through place rest
  | place, .up :: rest => tree.through place.dropLast rest
  | place, .name name :: rest =>
    if name.utf8ByteSize ≤ Path.nameLimit ∧ tree.kindAt (place ++ [name]) = some .directory then
      tree.through (place ++ [name]) rest
    else none

section Tracks

variable {tree : FileTree} {place base entry : Place}

theorem track_name (noLinks : tree.NoLinks) (place : Place) (name : String)
    (rest : List Path.Component) : tree.track place (.name name :: rest) =
      if Path.nameLimit < name.utf8ByteSize then .error .nameTooLong
      else if tree.kindAt (place ++ [name]) = some .directory then
        tree.track (place ++ [name]) rest
      else if rest = [] then .ok (place ++ [name])
      else .error (if tree.kindAt (place ++ [name]) = none then .notFound else .notDirectory) := by
  have noLink := noLinks (place ++ [name])
  rw [track, walk]
  unfold kindAt at noLink ⊢
  dsimp only
  cases held : tree.at? (place ++ [name]) with
  | none => simp
  | some node =>
    rw [held] at noLink
    cases node with
    | file content => simp [kind]
    | directory entries => simp [kind]
    | link target => exact absurd rfl noLink

theorem track_last (noLinks : tree.NoLinks) (place : Place) (name : String) :
    tree.track place [.name name] =
      if Path.nameLimit < name.utf8ByteSize then .error .nameTooLong
      else .ok (place ++ [name]) := by
  rw [track_name noLinks, if_pos rfl]
  split_ifs <;> rfl

theorem walk_eq_track (noLinks : tree.NoLinks) (last : Bool) (follow : Follow)
    (steps : List Path.Component) :
    ∀ place, tree.walk last follow place steps = tree.track place steps := by
  induction steps with
  | nil => exact fun _ => rfl
  | cons step rest ih =>
    intro place
    cases step with
    | root => exact ih []
    | here => exact ih place
    | up => exact ih place.dropLast
    | name text =>
      have noLink := noLinks (place ++ [text])
      rw [track, walk, walk]
      unfold kindAt at noLink
      dsimp only
      cases held : tree.at? (place ++ [text]) with
      | none => rfl
      | some node =>
        rw [held] at noLink
        cases node with
        | file content => rfl
        | directory entries => rw [ih (place ++ [text])]; rfl
        | link target => exact absurd rfl noLink

theorem resolve_eq_track (noLinks : tree.NoLinks) (last : Bool) (place : Place) (path : String) :
    tree.resolve last place path =
      match Path.refusal? path with
      | some cause => .error cause
      | none => tree.track place (Path.steps path) := by
  have walked : tree.walkLinks last Path.linkLimit place (Path.steps path) =
      tree.track place (Path.steps path) := walk_eq_track noLinks last _ _ place
  rw [resolve, walked, Path.refusal?]
  split_ifs <;> rfl

theorem through_append (front back : List Path.Component) :
    ∀ place, tree.through place (front ++ back) =
      (tree.through place front).bind fun base => tree.through base back := by
  induction front with
  | nil => exact fun _ => rfl
  | cons step rest ih =>
    intro place
    cases step with
    | root => exact ih []
    | here => exact ih place
    | up => exact ih place.dropLast
    | name text =>
      rw [List.cons_append, through, through]
      split
      case isTrue => exact ih _
      case isFalse => rfl

theorem through_filter (steps : List Path.Component) :
    ∀ place, tree.through place (steps.filter (· ≠ .here)) = tree.through place steps := by
  induction steps with
  | nil => exact fun _ => rfl
  | cons step rest ih =>
    intro place
    cases step with
    | root => exact ih []
    | here => exact ih place
    | up => exact ih place.dropLast
    | name text =>
      rw [List.filter_cons_of_pos (by simp), through, through]
      split
      case isTrue => exact ih _
      case isFalse => rfl

theorem through_way (place : Place) (path : String) :
    tree.through place (Path.way path) = tree.through place (Path.steps path) :=
  through_filter _ place

theorem through_names (names : List String) :
    ∀ base place, tree.through base (names.map .name) = some place → place = base ++ names := by
  induction names with
  | nil =>
    intro base place led
    rw [List.append_nil]
    exact (Option.some.inj led).symm
  | cons name rest ih =>
    intro base place led
    rw [List.map_cons, through] at led
    split at led
    case isTrue => rw [ih _ _ led, List.append_assoc, List.singleton_append]
    case isFalse => cases led

theorem track_through (noLinks : tree.NoLinks) (back front : List Path.Component) :
    ∀ place, tree.through place front = some base →
      tree.track place (front ++ back) = tree.track base back := by
  induction front with
  | nil =>
    intro place led
    rw [Option.some.inj led, List.nil_append]
  | cons step rest ih =>
    intro place led
    cases step with
    | root => exact ih [] led
    | here => exact ih place led
    | up => exact ih place.dropLast led
    | name text =>
      rw [through] at led
      split at led
      case isTrue both =>
        rw [List.cons_append, track_name noLinks, if_neg (Nat.not_lt_of_le both.1), if_pos both.2]
        exact ih _ led
      case isFalse => cases led

theorem track_of_through (noLinks : tree.NoLinks) {steps : List Path.Component}
    (led : tree.through place steps = some base) : tree.track place steps = .ok base := by
  have behind := track_through noLinks [] steps place led
  rw [List.append_nil] at behind
  exact behind

theorem through_of_track (noLinks : tree.NoLinks)
    (isDirectory : tree.kindAt entry = some .directory) (steps : List Path.Component) :
    ∀ place, tree.track place steps = .ok entry → tree.through place steps = some entry := by
  induction steps with
  | nil =>
    intro place led
    rw [Except.ok.inj led]
    rfl
  | cons step rest ih =>
    intro place led
    cases step with
    | root => exact ih [] led
    | here => exact ih place led
    | up => exact ih place.dropLast led
    | name text =>
      rw [track_name noLinks] at led
      split_ifs at led with long held last
      case pos => rw [through, if_pos ⟨Nat.le_of_not_lt long, held⟩]; exact ih _ led
      case pos =>
        rw [Except.ok.inj led] at held
        exact absurd isDirectory held

theorem track_filter (noLinks : tree.NoLinks) (steps : List Path.Component) :
    ∀ place, steps.getLast? ≠ some .here →
      tree.track place (steps.filter (· ≠ .here)) = tree.track place steps := by
  induction steps with
  | nil => exact fun _ _ => rfl
  | cons step rest ih =>
    intro place ends
    by_cases last : rest = []
    · subst last
      cases step with
      | here => exact absurd rfl ends
      | root => rfl
      | up => rfl
      | name text => rfl
    · have ends' : rest.getLast? ≠ some .here := by
        rwa [List.getLast?_cons_of_ne_nil last] at ends
      cases step with
      | root => exact ih [] ends'
      | here => exact ih place ends'
      | up => exact ih place.dropLast ends'
      | name text =>
        have more : rest.filter (· ≠ .here) ≠ [] := by
          intro none_
          rw [List.getLast?_eq_some_getLast last] at ends'
          have there : rest.getLast last ∈ rest.filter (· ≠ .here) :=
            List.mem_filter.mpr ⟨List.getLast_mem last, by simpa using ends'⟩
          rw [none_] at there
          cases there
        rw [List.filter_cons_of_pos (by simp), track_name noLinks, track_name noLinks,
          ih _ ends', if_neg more, if_neg last]

theorem isDirectory_through (top : tree.kindAt [] = some .directory) (steps : List Path.Component) :
    ∀ place, tree.kindAt place = some .directory → tree.through place steps = some base →
      tree.kindAt base = some .directory := by
  induction steps with
  | nil =>
    intro place isDirectory led
    rw [← Option.some.inj led]
    exact isDirectory
  | cons step rest ih =>
    intro place isDirectory led
    cases step with
    | root => exact ih [] top led
    | here => exact ih place isDirectory led
    | up =>
      refine ih place.dropLast ?_ led
      by_cases empty : place = []
      · rw [empty]
        exact top
      · obtain ⟨entries, held⟩ := kindAt_eq_directory.mp isDirectory
        rw [← List.dropLast_concat_getLast empty] at held
        exact kindAt_eq_directory.mpr (isDirectory_of_at?_concat held)
    | name text =>
      rw [through] at led
      split at led
      case isTrue both => exact ih _ both.2 led
      case isFalse => cases led

theorem track_filter_dot (noLinks : tree.NoLinks) (steps : List Path.Component) :
    ∀ place, steps.getLast? = some .here →
      tree.track place (steps.filter (· ≠ .here) ++ [.here]) = tree.track place steps := by
  induction steps with
  | nil => exact fun _ ends => nomatch ends
  | cons step rest ih =>
    intro place ends
    by_cases last : rest = []
    · subst last
      obtain rfl := Option.some.inj ends
      rfl
    · have ends' : rest.getLast? = some .here := by
        rwa [List.getLast?_cons_of_ne_nil last] at ends
      cases step with
      | root => exact ih [] ends'
      | here => exact ih place ends'
      | up => exact ih place.dropLast ends'
      | name text =>
        have more : rest.filter (· ≠ .here) ++ [.here] ≠ [] :=
          List.append_ne_nil_of_right_ne_nil _ (List.cons_ne_nil _ _)
        rw [List.filter_cons_of_pos (by simp), List.cons_append, track_name noLinks,
          track_name noLinks, ih _ ends', if_neg more, if_neg last]

theorem kindAt_top (isDirectory : tree.kindAt place = some .directory) :
    tree.kindAt [] = some .directory := by
  cases place with
  | nil => exact isDirectory
  | cons name rest =>
    obtain ⟨entries, held⟩ := kindAt_eq_directory.mp isDirectory
    obtain ⟨entries', -, rfl, -⟩ := exists_of_at?_cons held
    rfl

theorem through_of_stays {new : FileTree}
    (stays : ∀ place, tree.kindAt place = some .directory → new.kindAt place = some .directory)
    (steps : List Path.Component) :
    ∀ place, tree.through place steps = some base → new.through place steps = some base := by
  induction steps with
  | nil => exact fun _ led => led
  | cons step rest ih =>
    intro place led
    cases step with
    | root => exact ih [] led
    | here => exact ih place led
    | up => exact ih place.dropLast led
    | name text =>
      rw [through] at led ⊢
      split at led
      case isTrue both => rw [if_pos ⟨both.1, stays _ both.2⟩]; exact ih _ led
      case isFalse => cases led

theorem kindAt_append_of_none (absent : tree.kindAt place = none) (below : Place) :
    tree.kindAt (place ++ below) = none := by
  rw [kindAt_eq_none] at absent ⊢
  rw [at?_append, absent]
  rfl

end Tracks

/-! What is in the way of new directories. -/

/-- What keeps a name from being passed on a way, if a file does with the given error. -/
def block (tree : FileTree) (atFile : DiskError) (place : Place) (name : String) :
    Option DiskError :=
  if Path.nameLimit < name.utf8ByteSize then some .nameTooLong
  else if tree.kindAt (place ++ [name]) = some .file then some atFile
  else none

/-- What keeps a new file of a name out of a directory. -/
def occupied (tree : FileTree) (place : Place) (name : String) : Option DiskError :=
  if Path.nameLimit < name.utf8ByteSize then some .nameTooLong
  else if tree.kindAt (place ++ [name]) ≠ none then some .alreadyExists
  else none

/-- What is first in the way of something below the names. -/
def blockade (tree : FileTree) (base : Place) : List String → Option DiskError
  | [] => none
  | name :: rest => (tree.block .notDirectory base name).or (tree.blockade (base ++ [name]) rest)

/-- What is first in the way of directories of the names. -/
def obstacle (tree : FileTree) (base : Place) (names : List String) : Option DiskError :=
  (tree.blockade base names.dropLast).or
    (names.getLast?.bind (tree.block .alreadyExists (base ++ names.dropLast)))

/-- The places of the directories before what is in the way. -/
def openings (tree : FileTree) (base : Place) : List String → List Place
  | [] => []
  | name :: rest =>
    if tree.block .notDirectory base name = none then
      (base ++ [name]) :: tree.openings (base ++ [name]) rest
    else []

section Courses

variable {tree : FileTree} {base : Place}

theorem block_eq_none {atFile : DiskError} {place : Place} {name : String} :
    tree.block atFile place name = none ↔
      name.utf8ByteSize ≤ Path.nameLimit ∧ tree.kindAt (place ++ [name]) ≠ some .file := by
  unfold block
  split_ifs with long held <;> simp_all

theorem blockade_concat (names : List String) (last : String) : ∀ base,
    tree.blockade base (names ++ [last]) =
      (tree.blockade base names).or (tree.block .notDirectory (base ++ names) last) := by
  induction names with
  | nil => simp [blockade]
  | cons name rest ih => simp [blockade, ih, Option.or_assoc]

theorem obstacle_concat (base : Place) (names : List String) (last : String) :
    tree.obstacle base (names ++ [last]) =
      (tree.blockade base names).or (tree.block .alreadyExists (base ++ names) last) := by
  rw [obstacle, List.dropLast_concat, List.getLast?_concat, Option.bind_some]

theorem openings_concat (names : List String) (last : String) : ∀ base,
    tree.openings base (names ++ [last]) = tree.openings base names ++
      if tree.blockade base names = none ∧ tree.block .notDirectory (base ++ names) last = none
      then [base ++ names ++ [last]] else [] := by
  induction names with
  | nil => simp [openings, blockade]
  | cons name rest ih =>
    intro base
    rw [List.cons_append, openings, openings, blockade]
    by_cases free : tree.block .notDirectory base name = none
    · simp [free, ih]
    · simp [free]

theorem block_eq_none_iff {place : Place} {name : String} :
    tree.block .notDirectory place name = none ↔ tree.block .alreadyExists place name = none := by
  rw [block_eq_none, block_eq_none]

/-- What is in the way of directories is in the way of what is below them, unless it is a file. -/
theorem obstacle_eq_blockade {names : List String}
    (noFile : tree.kindAt (base ++ names) ≠ some .file) :
    tree.obstacle base names = tree.blockade base names := by
  induction names using List.reverseRecOn with
  | nil => rfl
  | append_singleton names last _ =>
    rw [← List.append_assoc] at noFile
    rw [obstacle_concat, blockade_concat, block, block, if_neg noFile, if_neg noFile]

theorem blockade_of_obstacle {names : List String} (free : tree.obstacle base names = none) :
    tree.blockade base names = none := by
  induction names using List.reverseRecOn with
  | nil => rfl
  | append_singleton names last _ =>
    rw [obstacle_concat, Option.or_eq_none_iff, ← block_eq_none_iff] at free
    rw [blockade_concat, Option.or_eq_none_iff]
    exact free

theorem exists_of_mem_openings {place : Place} (names : List String) : ∀ base,
    place ∈ tree.openings base names → tree.kindAt place ≠ some .file ∧
      ∃ some_, some_ ≠ [] ∧ some_ <+: names ∧ place = base ++ some_ := by
  induction names with
  | nil => exact fun _ member => absurd member List.not_mem_nil
  | cons name rest ih =>
    intro base member
    rw [openings] at member
    split at member
    case isTrue free =>
      rcases List.mem_cons.mp member with rfl | later
      · exact ⟨(block_eq_none.mp free).2, [name], List.cons_ne_nil name [], ⟨rest, rfl⟩, rfl⟩
      · obtain ⟨noFile, more, -, part, rfl⟩ := ih _ later
        refine ⟨noFile, name :: more, List.cons_ne_nil name more, ?_, ?_⟩
        · exact List.cons_prefix_cons.mpr ⟨rfl, part⟩
        · rw [List.append_assoc, List.singleton_append]
    case isFalse => cases member

theorem blockade_congr {tree' : FileTree} (names : List String) : ∀ base,
    (∀ above, above <+: names →
      (tree.kindAt (base ++ above) = some .file ↔ tree'.kindAt (base ++ above) = some .file)) →
    tree.blockade base names = tree'.blockade base names ∧
      tree.openings base names = tree'.openings base names := by
  induction names with
  | nil => exact fun _ _ => ⟨rfl, rfl⟩
  | cons name rest ih =>
    intro base same
    have first := same [name] ⟨rest, rfl⟩
    have first' : tree.block .notDirectory base name = tree'.block .notDirectory base name := by
      simp only [block, first]
    obtain ⟨blockades, openings_⟩ := ih (base ++ [name]) fun above part => by
      rw [List.append_assoc, List.singleton_append]
      exact same (name :: above) (List.cons_prefix_cons.mpr ⟨rfl, part⟩)
    rw [blockade, blockade, openings, openings, first', blockades, openings_]
    exact ⟨rfl, rfl⟩

theorem obstacle_congr {tree' : FileTree} {names : List String}
    (same : ∀ above, above <+: names →
      (tree.kindAt (base ++ above) = some .file ↔ tree'.kindAt (base ++ above) = some .file)) :
    tree.obstacle base names = tree'.obstacle base names := by
  induction names using List.reverseRecOn with
  | nil => rfl
  | append_singleton names last _ =>
    have last_ := same (names ++ [last]) List.prefix_rfl
    rw [← List.append_assoc] at last_
    have before := (blockade_congr names base fun above part =>
      same above (part.trans (List.prefix_append names [last]))).1
    rw [obstacle_concat, obstacle_concat, before]
    simp only [block, last_]

/-- The way along names: it leads through directories, or ends at what is in the way, or where
nothing is. -/
inductive Course (tree : FileTree) (base : Place) (names : List String) : Prop where
  | clear (led : tree.through base (names.map .name) = some (base ++ names))
    (free : tree.blockade base names = none)
    (there : ∀ place ∈ tree.openings base names, tree.kindAt place = some .directory) :
    Course tree base names
  | blocked {cause : DiskError}
    (stops : ∀ back ≠ [], tree.track base (names.map .name ++ back) = .error cause)
    (other : cause ≠ .notFound) (blocked : tree.blockade base names = some cause)
    (there : ∀ place ∈ tree.openings base names, tree.kindAt place = some .directory) :
    Course tree base names
  | missing (stops : ∀ back ≠ [], tree.track base (names.map .name ++ back) = .error .notFound)
    (absent : ∀ below, tree.kindAt (base ++ names ++ below) = none) : Course tree base names

theorem Course.of_block {name : String} {rest : List String} {cause : DiskError}
    (block : tree.block .notDirectory base name = some cause) (other : cause ≠ .notFound)
    (stops : ∀ back ≠ [], tree.track base ((name :: rest).map .name ++ back) = .error cause) :
    tree.Course base (name :: rest) := by
  refine .blocked stops other ?_ ?_
  · rw [blockade, block, Option.some_or]
  · rw [openings, block]
    exact fun _ member => absurd member List.not_mem_nil

theorem Course.cons {name : String} {rest : List String}
    (short : ¬ Path.nameLimit < name.utf8ByteSize)
    (held : tree.kindAt (base ++ [name]) = some .directory)
    (goesOn : ∀ back ≠ [], tree.track base ((name :: rest).map .name ++ back) =
      tree.track (base ++ [name]) (rest.map .name ++ back))
    (course : tree.Course (base ++ [name]) rest) : tree.Course base (name :: rest) := by
  have passes : tree.block .notDirectory base name = none := by
    rw [block, if_neg short, held, if_neg (by decide)]
  have sameBlockade : tree.blockade base (name :: rest) = tree.blockade (base ++ [name]) rest := by
    rw [blockade, passes, Option.none_or]
  have there (others : ∀ place ∈ tree.openings (base ++ [name]) rest,
        tree.kindAt place = some .directory) :
      ∀ place ∈ tree.openings base (name :: rest), tree.kindAt place = some .directory := by
    rw [openings, if_pos passes]
    exact List.forall_mem_cons.mpr ⟨held, others⟩
  cases course with
  | clear led free others =>
    refine .clear ?_ (sameBlockade.trans free) (there others)
    rw [List.map_cons, through, if_pos ⟨Nat.le_of_not_lt short, held⟩, led, List.append_assoc,
      List.singleton_append]
  | blocked stops other blocked others =>
    exact .blocked (fun back nonempty => (goesOn back nonempty).trans (stops back nonempty)) other
      (sameBlockade.trans blocked) (there others)
  | missing stops absent =>
    refine .missing (fun back nonempty => (goesOn back nonempty).trans (stops back nonempty))
      fun below => ?_
    simpa using absent below

theorem exists_course (noLinks : tree.NoLinks) (names : List String) :
    ∀ base, tree.Course base names := by
  induction names with
  | nil =>
    intro base
    exact .clear (by rw [List.append_nil]; rfl) rfl fun _ member => absurd member List.not_mem_nil
  | cons name rest ih =>
    intro base
    have more : ∀ back ≠ [], rest.map Path.Component.name ++ back ≠ [] := fun _ nonempty =>
      List.append_ne_nil_of_right_ne_nil _ nonempty
    have first : ∀ back, tree.track base ((name :: rest).map .name ++ back) = _ :=
      fun back => track_name noLinks base name (rest.map Path.Component.name ++ back)
    by_cases long : Path.nameLimit < name.utf8ByteSize
    · refine Course.of_block (if_pos long) (by decide) fun back _ => ?_
      rw [first, if_pos long]
    cases held : tree.kindAt (base ++ [name]) with
    | none =>
      refine .missing (fun back nonempty => ?_) fun below => ?_
      · rw [first, if_neg long, held, if_neg (by decide), if_neg (more back nonempty), if_pos rfl]
      · have absent := kindAt_append_of_none held (rest ++ below)
        simpa using absent
    | some kind =>
      cases kind with
      | link => exact absurd held (noLinks _)
      | file =>
        have stops : tree.block .notDirectory base name = some .notDirectory := by
          rw [block, if_neg long, if_pos held]
        refine Course.of_block stops (by decide) fun back nonempty => ?_
        rw [first, if_neg long, held, if_neg (by decide), if_neg (more back nonempty),
          if_neg (by decide)]
      | directory =>
        refine Course.cons long held (fun back _ => ?_) (ih (base ++ [name]))
        rw [first, if_neg long, if_pos held]

theorem not_isFile_of_missing (noLinks : tree.NoLinks) (top : tree.kindAt [] = some .directory)
    (isDirectory : tree.kindAt base = some .directory) {names : List String}
    {back : List Path.Component} (nonempty : back ≠ [])
    (missing : tree.track base (names.map .name ++ back) = .error .notFound) :
    tree.kindAt (base ++ names) ≠ some .file := by
  intro isFile
  cases exists_course noLinks names base with
  | clear led _ _ =>
    have held := isDirectory_through top _ _ isDirectory led
    rw [isFile] at held
    cases held
  | blocked stops other _ _ => exact other (Except.error.inj ((stops _ nonempty).symm.trans missing))
  | missing _ absent =>
    have nothing := absent []
    rw [List.append_nil, isFile] at nothing
    cases nothing

/-! New directories at what is open. -/

/-- New directories at some places. -/
def folders (places : List Place) : Additions := places.map fun place => (place, directory [])

theorem folders_append (places others : List Place) :
    folders (places ++ others) = folders places ++ folders others := List.map_append

theorem mem_folders {places : List Place} {item : Place × FileTree} :
    item ∈ folders places ↔ item.1 ∈ places ∧ item.2 = directory [] := by
  rw [folders, List.mem_map]
  constructor
  · rintro ⟨place, member, rfl⟩
    exact ⟨member, rfl⟩
  · rintro ⟨member, same⟩
    exact ⟨item.1, member, by rw [← same]⟩

/-- Directories can be made at what is open, one in the other, also when others were made. -/
theorem grounded_openings (names : List String) : ∀ (new : FileTree) (base : Place),
    new.NoLinks → new.kindAt base = some .directory →
    (∀ place ∈ tree.openings base names, new.kindAt place ≠ some .file) →
    Grounded new (folders (tree.openings base names)) := by
  induction names with
  | nil => exact fun _ _ _ _ _ => trivial
  | cons name rest ih =>
    intro new base noLinks isDirectory noFile
    rw [openings] at noFile ⊢
    split at noFile
    case isFalse => rw [if_neg ‹_›]; exact trivial
    case isTrue free =>
      obtain ⟨first, others⟩ := List.forall_mem_cons.mp noFile
      have hasRoom : new.HasRoom (base ++ [name]) := ⟨base, name, rfl, isDirectory⟩
      have filled := @kindAt_fill new (directory []) (base ++ [name]) isLeaf_empty hasRoom
      rw [if_pos free]
      refine ⟨hasRoom, isLeaf_empty, ih _ _ ?_ ?_ ?_⟩
      · intro place
        rw [filled]
        split
        case isTrue => exact nofun
        case isFalse => exact noLinks place
      · rw [filled]
        cases held : new.kindAt (base ++ [name]) with
        | none => rw [if_pos ⟨rfl, rfl⟩]; rfl
        | some kind =>
          rw [if_neg (fun both => by cases both.2)]
          cases kind with
          | directory => rfl
          | file => exact absurd held first
          | link => exact absurd held (noLinks _)
      · intro place member
        rw [filled]
        split
        case isTrue => exact nofun
        case isFalse => exact others place member

theorem grounded_own_openings (noLinks : tree.NoLinks)
    (isDirectory : tree.kindAt base = some .directory) (names : List String) :
    Grounded tree (folders (tree.openings base names)) :=
  grounded_openings names tree base noLinks isDirectory fun _ member =>
    (exists_of_mem_openings names base member).1

theorem kindAt_openings (noLinks : tree.NoLinks) (isDirectory : tree.kindAt base = some .directory)
    {names : List String} {place : Place} (member : place ∈ tree.openings base names) :
    (tree.fillAll (folders (tree.openings base names))).kindAt place = some .directory := by
  have noFile := (exists_of_mem_openings names base member).1
  rw [kindAt_fillAll place (grounded_own_openings noLinks isDirectory names)]
  cases held : tree.kindAt place with
  | some kind =>
    cases kind with
    | directory => rfl
    | file => exact absurd held noFile
    | link => exact absurd held (noLinks place)
  | none =>
    rw [Option.none_or]
    cases first : (folders (tree.openings base names)).find? fun item => item.1 = place with
    | none =>
      have among : (place, directory []) ∈ folders (tree.openings base names) :=
        mem_folders.mpr ⟨member, rfl⟩
      have absent := List.find?_eq_none.mp first _ among
      simp at absent
    | some item =>
      have among := (mem_folders.mp (List.mem_of_find?_eq_some first)).2
      rw [Option.map_some, among]
      rfl

theorem isFile_fillAll_folders {places : List Place} (grounded : Grounded tree (folders places))
    (asked : Place) : (tree.fillAll (folders places)).kindAt asked = some .file ↔
      tree.kindAt asked = some .file := by
  rw [kindAt_fillAll asked grounded]
  cases tree.kindAt asked with
  | some kind => rw [Option.some_or]
  | none =>
    rw [Option.none_or]
    constructor
    · intro new
      obtain ⟨item, found, isFile⟩ := Option.map_eq_some_iff.mp new
      rw [(mem_folders.mp (List.mem_of_find?_eq_some found)).2] at isFile
      cases isFile
    · exact nofun

theorem kindAt_fillAll_below (noLinks : tree.NoLinks)
    (isDirectory : tree.kindAt base = some .directory) (names : List String) (last : String) :
    (tree.fillAll (folders (tree.openings base names))).kindAt (base ++ names ++ [last]) =
      tree.kindAt (base ++ names ++ [last]) := by
  refine kindAt_fillAll_of_other (grounded_own_openings noLinks isDirectory names) ?_
  intro item member there
  obtain ⟨-, above, -, part, place⟩ := exists_of_mem_openings _ _ (mem_folders.mp member).1
  have longer := congrArg List.length (place.symm.trans there)
  have shorter := part.length_le
  simp only [List.length_append, List.length_singleton] at longer
  omega

theorem occupied_fillAll (noLinks : tree.NoLinks) (isDirectory : tree.kindAt base = some .directory)
    (names : List String) (file : String) :
    (tree.fillAll (folders (tree.openings base names))).occupied (base ++ names) file =
      tree.occupied (base ++ names) file := by
  simp only [occupied, kindAt_fillAll_below noLinks isDirectory names file]

/-- With directories at what is open, names lead through them if nothing is in the way. -/
theorem through_of_openings {new : FileTree} (names : List String) : ∀ base,
    tree.blockade base names = none →
    (∀ place ∈ tree.openings base names, new.kindAt place = some .directory) →
    new.through base (names.map .name) = some (base ++ names) := by
  induction names with
  | nil =>
    intro base _ _
    rw [List.append_nil]
    rfl
  | cons name rest ih =>
    intro base free there
    rw [blockade, Option.or_eq_none_iff] at free
    rw [openings, if_pos free.1] at there
    obtain ⟨first, others⟩ := List.forall_mem_cons.mp there
    rw [List.map_cons, through, if_pos ⟨(block_eq_none.mp free.1).1, first⟩,
      ih _ free.2 others, List.append_assoc, List.singleton_append]

end Courses

end FileTree

end DesignLink
