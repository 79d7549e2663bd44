import DesignLink.Proofs.Disk.Folders

/-!
Ways that follow links. The first part of a way leads into a directory, from which the rest is taken
with the links that are left, or it stops whatever is behind it. Dots on a way mean nothing unless
one is at its end.
-/

namespace DesignLink

namespace Path

/-- A way without the dots on it. One at its end is kept, since it asks for a directory. -/
def settled (steps : List Component) : List Component :=
  steps.filter (· ≠ .here) ++ if steps.getLast? = some .here then [.here] else []

theorem settled_cons {rest : List Component} (more : rest ≠ []) (step : Component) :
    settled (step :: rest) = if step = .here then settled rest else step :: settled rest := by
  unfold settled
  rw [List.getLast?_cons_of_ne_nil more]
  by_cases here : step = .here
  · rw [if_pos here, List.filter_cons_of_neg (by simpa using here)]
  · rw [if_neg here, List.filter_cons_of_pos (by simpa using here), List.cons_append]

theorem settled_singleton (step : Component) : settled [step] = [step] := by
  cases step <;> rfl

theorem settled_eq_nil {steps : List Component} : settled steps = [] ↔ steps = [] := by
  constructor
  · intro nothing
    induction steps with
    | nil => rfl
    | cons step rest ih =>
      by_cases last : rest = []
      · rw [last, settled_singleton] at nothing
        cases nothing
      · rw [settled_cons last] at nothing
        split_ifs at nothing
        exact absurd (ih nothing) last
  · rintro rfl
    rfl

theorem settled_append (front : List Component) {rest : List Component} (more : rest ≠ []) :
    settled (front ++ rest) = front.filter (· ≠ .here) ++ settled rest := by
  unfold settled
  rw [List.filter_append, List.getLast?_append_of_ne_nil _ more, List.append_assoc]

theorem settled_settled (steps : List Component) : settled (settled steps) = settled steps := by
  induction steps with
  | nil => rfl
  | cons step rest ih =>
    by_cases last : rest = []
    · rw [last, settled_singleton, settled_singleton]
    · rw [settled_cons last]
      split_ifs with here
      · exact ih
      · rw [settled_cons (settled_eq_nil.not.mpr last), if_neg here, ih]

theorem settled_append_settled (front steps : List Component) :
    settled (front ++ settled steps) = settled (front ++ steps) := by
  by_cases nothing : steps = []
  · rw [nothing]
    rfl
  · rw [settled_append front nothing, settled_append front (settled_eq_nil.not.mpr nothing),
      settled_settled]

/-- The steps of a path are its way, with a dot behind it if the path asks for a directory. -/
theorem settled_steps (path : String) :
    settled (steps path) = way path ∨ settled (steps path) = way path ++ [.here] := by
  unfold settled
  split_ifs
  · exact .inr rfl
  · exact .inl (List.append_nil _)

end Path

namespace FileTree

open DesignLink.Path (settled)

variable {tree : FileTree} {last : Bool} {follow follow' : Follow} {links : Nat}
  {place base entry : Place} {steps : List Path.Component}

def afterLink (tree : FileTree) (last : Bool) : Nat → Follow
  | 0 => fun _ _ => .error .tooManyLinks
  | left + 1 => tree.walkLinks last left

theorem walkLinks_eq (tree : FileTree) (last : Bool) (links : Nat) :
    tree.walkLinks last links = tree.walk last (tree.afterLink last links) := by
  cases links <;> rfl

/-! Dots on the way. -/

theorem walk_settled
    (same : ∀ place a b, settled a = settled b → follow place a = follow place b) :
    ∀ (steps : List Path.Component) (place : Place),
      tree.walk last follow place (settled steps) = tree.walk last follow place steps := by
  intro steps
  induction steps with
  | nil => exact fun _ => rfl
  | cons step rest ih =>
    intro place
    by_cases lone : rest = []
    · rw [lone, Path.settled_singleton]
    rw [Path.settled_cons lone]
    cases step with
    | root => exact ih []
    | here => exact ih place
    | up => exact ih place.dropLast
    | name text =>
      have behind (target : String) : follow place (Path.steps target ++ settled rest) =
          follow place (Path.steps target ++ rest) :=
        same _ _ _ (Path.settled_append_settled _ _)
      simp only [reduceCtorEq, if_false, walk, Path.settled_eq_nil, ih, behind]

theorem walkLinks_congr : ∀ (links : Nat) (place : Place) (a b : List Path.Component),
    settled a = settled b → tree.walkLinks last links place a = tree.walkLinks last links place b := by
  intro links
  induction links with
  | zero =>
    intro place a b same
    rw [walkLinks, ← walk_settled (fun _ _ _ _ => rfl) a, same, walk_settled fun _ _ _ _ => rfl]
  | succ left ih =>
    intro place a b same
    rw [walkLinks, ← walk_settled ih a, same, walk_settled ih]

/-! The first part of a way. -/

/-- What comes of ways that start alike, as a function of what is behind the common part: they go on
from a directory, or they all stop. -/
inductive Stage (tree : FileTree) (go : Bool → List Path.Component → Except DiskError Place) :
    Prop where
  | enters (base : Place) (left : Nat) (isDirectory : tree.kindAt base = some .directory)
    (goesOn : ∀ last back, back ≠ [] ∨ last = true →
      go last back = tree.walkLinks last left base back) : Stage tree go
  | stops (cause : DiskError) (fails : ∀ last back, back ≠ [] → go last back = .error cause)
    (noDirectory : ∀ entry, go true [] = .ok entry → tree.kindAt entry ≠ some .directory) :
    Stage tree go

theorem Stage.atEnd (noDirectory : tree.kindAt entry ≠ some .directory) (cause : DiskError)
    (rest : List Path.Component) :
    tree.Stage fun _ back => if rest ++ back = [] then .ok entry else .error cause := by
  refine .stops cause (fun last back more => if_neg (by simp [more])) fun found led => ?_
  rw [List.append_nil] at led
  split at led
  case isTrue =>
    obtain rfl := Except.ok.inj led
    exact noDirectory
  case isFalse => cases led

theorem isDirectory_dropLast (top : tree.kindAt [] = some .directory)
    (isDirectory : tree.kindAt place = some .directory) :
    tree.kindAt place.dropLast = some .directory := by
  by_cases empty : place = []
  · rw [empty]
    exact top
  · obtain ⟨entries, held⟩ := kindAt_eq_directory.mp isDirectory
    rw [← List.dropLast_concat_getLast empty] at held
    exact kindAt_eq_directory.mpr (isDirectory_of_at?_concat held)

theorem stage_of_linked (top : tree.kindAt [] = some .directory) (links : Nat)
    (linked : ∀ place, tree.kindAt place = some .directory → ∀ steps,
      tree.Stage fun last back => tree.afterLink last links place (steps ++ back)) :
    ∀ (front : List Path.Component) (place : Place), tree.kindAt place = some .directory →
      tree.Stage fun last back => tree.walkLinks last links place (front ++ back) := by
  intro front
  simp only [walkLinks_eq]
  induction front with
  | nil =>
    intro place isDirectory
    exact .enters place links isDirectory fun last back _ => by rw [walkLinks_eq]; rfl
  | cons step rest ih =>
    intro place isDirectory
    cases step with
    | root => exact ih [] top
    | here => exact ih place isDirectory
    | up => exact ih place.dropLast (isDirectory_dropLast top isDirectory)
    | name text =>
      simp only [List.cons_append, walk]
      by_cases long : Path.nameLimit < text.utf8ByteSize
      · simp only [if_pos long]
        exact .stops .nameTooLong (fun _ _ _ => rfl) fun _ led => by cases led
      simp only [if_neg long]
      cases held : tree.at? (place ++ [text]) with
      | none => exact .atEnd (by rw [kindAt, held]; exact fun same => by cases same) .notFound rest
      | some node =>
        cases node with
        | directory entries => exact ih _ (kindAt_eq_directory.mpr ⟨entries, held⟩)
        | file content =>
          exact .atEnd (by rw [kindAt, held]; exact fun same => by cases same) .notDirectory rest
        | link target =>
          have same {last : Bool} {back : List Path.Component} (further : back ≠ [] ∨ last = true) :
              (if rest ++ back = [] ∧ last = false then .ok (place ++ [text])
                else tree.afterLink last links place (Path.steps target ++ (rest ++ back))) =
              tree.afterLink last links place (Path.steps target ++ rest ++ back) := by
            rw [if_neg, List.append_assoc]
            rcases further with more | rfl
            · simp [more]
            · simp
          cases linked place isDirectory (Path.steps target ++ rest) with
          | enters base left isDirectory' goesOn =>
            exact .enters base left isDirectory' fun last back further =>
              (same further).trans (goesOn last back further)
          | stops cause fails noDirectory =>
            refine .stops cause (fun last back more => (same (.inl more)).trans (fails last back more))
              fun entry led => noDirectory entry ?_
            exact (same (.inr rfl)).symm.trans led

/-- The first part of a way leads into a directory, or nothing behind it is reached. -/
theorem stage (top : tree.kindAt [] = some .directory) : ∀ (links : Nat)
    (front : List Path.Component) (place : Place), tree.kindAt place = some .directory →
      tree.Stage fun last back => tree.walkLinks last links place (front ++ back) := by
  intro links
  induction links with
  | zero =>
    exact stage_of_linked top 0 fun _ _ _ =>
      .stops .tooManyLinks (fun _ _ _ => rfl) fun _ led => by cases led
  | succ left ih =>
    exact stage_of_linked top (left + 1) fun place isDirectory steps => ih steps place isDirectory

/-! The ends of ways. -/

theorem walk_to_name
    (goesOn : ∀ place steps entry, follow place steps = .ok entry → tree.kindAt entry ≠ none →
      ∃ named, follow' place steps = .ok named ∧ tree.kindAt named ≠ none)
    (steps : List Path.Component) :
    ∀ place entry, tree.walk true follow place steps = .ok entry → tree.kindAt entry ≠ none →
      ∃ named, tree.walk false follow' place steps = .ok named ∧ tree.kindAt named ≠ none := by
  induction steps with
  | nil => exact fun place entry led present => ⟨entry, led, present⟩
  | cons step rest ih =>
    intro place entry led present
    cases step with
    | root => exact ih [] entry led present
    | here => exact ih place entry led present
    | up => exact ih place.dropLast entry led present
    | name text =>
      rw [walk_name_iff] at led
      obtain ⟨short, passes⟩ := led
      simp only [walk_name_iff]
      cases passes with
      | missing absent => exact absurd (kindAt_eq_none.mpr absent) present
      | file held => exact ⟨_, ⟨short, .file held⟩, present⟩
      | directory held later =>
        obtain ⟨named, led, present'⟩ := ih _ _ later present
        exact ⟨named, ⟨short, .directory held led⟩, present'⟩
      | link held stays => cases stays
      | followed held further later =>
        by_cases lone : rest = []
        · subst lone
          refine ⟨_, ⟨short, .link held rfl⟩, ?_⟩
          rw [kindAt, held]
          exact Option.some_ne_none _
        · obtain ⟨named, led, present'⟩ := goesOn _ _ _ later present
          exact ⟨named, ⟨short, .followed held (fun both => lone both.1) led⟩, present'⟩

theorem walkLinks_to_name : ∀ (links : Nat) (place : Place) (steps : List Path.Component)
    (entry : Place), tree.walkLinks true links place steps = .ok entry →
      tree.kindAt entry ≠ none →
      ∃ named, tree.walkLinks false links place steps = .ok named ∧ tree.kindAt named ≠ none := by
  intro links
  induction links with
  | zero =>
    intro place steps
    exact walk_to_name (fun _ _ _ led _ => by cases led) steps place
  | succ left ih =>
    intro place steps
    exact walk_to_name ih steps place

theorem walk_ne_alreadyExists (others : ∀ place steps, follow place steps ≠ .error .alreadyExists)
    (steps : List Path.Component) :
    ∀ place, tree.walk last follow place steps ≠ .error .alreadyExists := by
  induction steps with
  | nil => exact fun place same => by cases same
  | cons step rest ih =>
    intro place
    cases step with
    | root => exact ih []
    | here => exact ih place
    | up => exact ih place.dropLast
    | name text =>
      rw [walk]
      split
      case isTrue => exact fun same => by cases same
      dsimp only
      split
      case h_2 => exact ih _
      case h_1 | h_3 => split <;> exact fun same => by cases same
      case h_4 =>
        split
        case isTrue => exact fun same => by cases same
        case isFalse => exact others _ _

theorem walkLinks_ne_alreadyExists : ∀ (links : Nat) (place : Place)
    (steps : List Path.Component),
    tree.walkLinks last links place steps ≠ .error .alreadyExists := by
  intro links
  induction links with
  | zero =>
    intro place steps
    exact walk_ne_alreadyExists (fun _ _ same => by cases same) steps place
  | succ left ih =>
    intro place steps
    exact walk_ne_alreadyExists ih steps place

end FileTree

end DesignLink
