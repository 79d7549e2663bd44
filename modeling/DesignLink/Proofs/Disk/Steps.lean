import DesignLink.Proofs.Project.Paths
import DesignLink.Proofs.Project.Writing

/-!
The steps of paths. What a path says about its way through a tree are the steps that go anywhere;
its text says more only at its end, where a dot or a slash asks for a directory.
-/

namespace DesignLink.Path

/-! The way that a path describes. -/

def way (path : String) : List Component := (steps path).filter (· ≠ .here)

/-- What a path says before its names: an absolute one starts at the top. -/
def start (path : String) : List Component := if isAbsolute path then [.root] else []

theorem filter_stepsOf (kept : List (List Char)) :
    (stepsOf kept).filter (· ≠ .here) = stepPieces kept := by
  fun_induction stepsOf kept with
  | case1 => rfl
  | case2 => rfl
  | case3 rest notLast ih => simpa [stepPieces, Component.ofPiece?] using ih
  | case4 rest _ _ ih => simpa [stepPieces, Component.ofPiece?] using ih
  | case5 rest _ _ _ ih => simpa [stepPieces, Component.ofPiece?] using ih
  | case6 piece rest _ notEmpty notHere notUp ih =>
    simpa [stepPieces, Component.ofPiece?, notEmpty, notHere, notUp] using ih

theorem stepPieces_append (front back : List (List Char)) :
    stepPieces (front ++ back) = stepPieces front ++ stepPieces back := List.filterMap_append

theorem pieces_slash (rest : List Char) : pieces ('/' :: rest) = [] :: pieces rest :=
  pieces_append [] rest

theorem start_of_slash {path : String} {rest : List Char} (shape : path.toList = '/' :: rest) :
    start path = [.root] := by
  simp [start, isAbsolute, shape]

theorem start_of_other {path : String} (other : path.toList.head? ≠ some '/') :
    start path = [] := by
  simp [start, isAbsolute, other]

theorem way_eq (path : String) : way path = start path ++ stepPieces (pieces path.toList) := by
  rw [way, steps]
  split
  case h_1 rest shape =>
    rw [List.filter_cons_of_pos (by decide), filter_stepsOf, start_of_slash shape, shape,
      pieces_slash]
    rfl
  case h_2 noSlash =>
    have other : path.toList.head? ≠ some '/' := by
      intro slash
      obtain ⟨rest, shape⟩ := List.head?_eq_some_iff.mp slash
      exact noSlash rest shape
    rw [filter_stepsOf, start_of_other other, List.nil_append]

theorem start_append {front : String} (nonempty : front ≠ "") (back : String) :
    start (front ++ back) = start front := by
  rw [start, isAbsolute_append nonempty, start]

theorem way_join (base : String) {path : String} (relative : isAbsolute path = false) :
    way (join base path) = way base ++ way path := by
  have noStart : start path = [] := by rw [start, relative]; rfl
  rw [join_of_relative relative, way_eq path, noStart, List.nil_append]
  by_cases empty : base = ""
  · subst empty
    rw [gap_empty, String.append_empty, String.empty_append, way_eq, noStart]
    rfl
  · rw [String.append_assoc, way_eq, start_append empty, way_eq base, List.append_assoc,
      ← stepPieces_append]
    congr 1
    by_cases closed : base.toList.getLast? = some '/'
    · have none_ : gap base = "" := if_pos (.inr closed)
      obtain ⟨front, shape⟩ := List.getLast?_eq_some_iff.mp closed
      rw [none_, String.empty_append, String.toList_append, shape, List.append_assoc,
        List.singleton_append, pieces_append, pieces_append, stepPieces_append, stepPieces_append,
        stepPieces_append]
      simp [stepPieces, pieces, Component.ofPiece?]
    · have slash : gap base = "/" := if_neg (by simp [empty, closed])
      have text : "/".toList = ['/'] := by decide
      rw [slash, String.toList_append, String.toList_append, text, List.singleton_append,
        pieces_append]

theorem exists_names {path : String} (noWayUp : .up ∉ way path) :
    ∃ names : List String, way path = start path ++ names.map .name := by
  have areNames : ∀ kept : List (List Char), .up ∉ stepPieces kept →
      ∃ names : List String, stepPieces kept = names.map .name := by
    intro kept
    induction kept with
    | nil => exact fun _ => ⟨[], rfl⟩
    | cons piece rest ih =>
      intro noWayUp
      cases step : Component.ofPiece? piece with
      | none =>
        rw [stepPieces, List.filterMap_cons_none step] at noWayUp ⊢
        exact ih noWayUp
      | some step' =>
        rw [stepPieces, List.filterMap_cons_some step, List.mem_cons, not_or] at noWayUp
        obtain ⟨names, same⟩ := ih noWayUp.2
        rw [stepPieces] at same
        rw [stepPieces, List.filterMap_cons_some step, same]
        unfold Component.ofPiece? at step
        split_ifs at step
        case pos =>
          cases step
          exact absurd rfl noWayUp.1
        case neg =>
          cases step
          exact ⟨String.ofList piece :: names, rfl⟩
  rw [way_eq] at noWayUp ⊢
  obtain ⟨names, same⟩ := areNames _ fun up => noWayUp (List.mem_append_right _ up)
  exact ⟨names, by rw [same]⟩

/-! The ends of paths. -/

def EndsInStep (path : String) : Prop :=
  ∃ front last step, pieces path.toList = front ++ [last] ∧ Component.ofPiece? last = some step

theorem getLast?_stepsOf {last : List Char} {step : Component} (own : stepsOf [last] = [step])
    (front : List (List Char)) : (stepsOf (front ++ [last])).getLast? = some step := by
  induction front with
  | nil => rw [List.nil_append, own, List.getLast?_singleton]
  | cons piece rest ih =>
    have more : ∃ before, stepsOf (piece :: (rest ++ [last])) =
        before ++ stepsOf (rest ++ [last]) := by
      rw [stepsOf]
      · split_ifs
        · exact ⟨[], rfl⟩
        · exact ⟨[.here], rfl⟩
        · exact ⟨[.up], rfl⟩
        · exact ⟨[.name (String.ofList piece)], rfl⟩
      · simp
    obtain ⟨before, shape⟩ := more
    rw [List.cons_append, shape, List.getLast?_append, ih, Option.some_or]

theorem getLast?_steps {path : String} {front : List (List Char)} {last : List Char}
    {step : Component} (shape : pieces path.toList = front ++ [last]) (full : last ≠ [])
    (own : stepsOf [last] = [step]) : (steps path).getLast? = some step := by
  rw [steps]
  split
  case h_1 rest text =>
    rw [text, pieces_slash] at shape
    cases front with
    | nil => exact absurd (List.cons.inj shape).1.symm full
    | cons first others =>
      have others_ : pieces rest = others ++ [last] := (List.cons.inj shape).2
      rw [others_, List.getLast?_cons, getLast?_stepsOf own]
      rfl
  case h_2 => rw [shape, getLast?_stepsOf own]

theorem ofPiece?_ne_here {piece : List Char} : Component.ofPiece? piece ≠ some .here := by
  unfold Component.ofPiece?
  split_ifs <;> exact nofun

theorem stepsOf_singleton {piece : List Char} {step : Component}
    (isStep : Component.ofPiece? piece = some step) : stepsOf [piece] = [step] := by
  unfold Component.ofPiece? at isStep
  split_ifs at isStep
  case pos notNone up =>
    obtain rfl := Option.some.inj isStep
    rw [up]
    rfl
  case neg notNone notUp =>
    rw [not_or] at notNone
    obtain rfl := Option.some.inj isStep
    rw [stepsOf, if_neg notNone.1, if_neg notNone.2, if_neg notUp]
    · rfl
    · exact fun empty _ => notNone.1 empty

theorem EndsInStep.getLast?_steps {path : String} (ends : EndsInStep path) :
    (steps path).getLast? ≠ some .here := by
  obtain ⟨front, last, step, shape, isStep⟩ := ends
  have full : last ≠ [] := by
    intro empty
    rw [empty] at isStep
    cases isStep
  rw [Path.getLast?_steps shape full (stepsOf_singleton isStep)]
  exact fun same => ofPiece?_ne_here (Option.some.inj same ▸ isStep)

theorem toList_withoutEndSlash (path : String) : (withoutEndSlash path).toList =
    if path.toList.rdropWhile (· = '/') = [] then path.toList
    else path.toList.rdropWhile (· = '/') := by
  rw [withoutEndSlash]
  split
  case h_1 nothing => rw [if_pos (by rw [List.rdropWhile, nothing, List.reverse_nil])]
  case h_2 kept nonempty =>
    rw [if_neg (by simpa [List.rdropWhile] using nonempty), String.toList_ofList, List.rdropWhile]

theorem exists_slashes (path : String) : ∃ count,
    path.toList = (withoutEndSlash path).toList ++ List.replicate count '/' ∧
      ((withoutEndSlash path).toList.getLast? ≠ some '/' ∨ ∀ c ∈ path.toList, c = '/') := by
  by_cases nothing : path.toList.rdropWhile (· = '/') = []
  · refine ⟨0, ?_, .inr ?_⟩
    · rw [toList_withoutEndSlash, if_pos nothing, List.replicate_zero, List.append_nil]
    · simpa using nothing
  · have slashes : path.toList.rtakeWhile (· = '/') =
        List.replicate (path.toList.rtakeWhile (· = '/')).length '/' :=
      List.eq_replicate_of_mem fun c member => by simpa using List.mem_rtakeWhile_imp member
    refine ⟨(path.toList.rtakeWhile (· = '/')).length, ?_, .inl ?_⟩
    · rw [toList_withoutEndSlash, if_neg nothing, ← slashes, List.rdropWhile_append_rtakeWhile]
    · have last := List.rdropWhile_last_not _ _ nothing
      rw [toList_withoutEndSlash, if_neg nothing, List.getLast?_eq_some_getLast nothing]
      simpa using last

theorem pieces_append_slashes (text : List Char) (count : Nat) :
    pieces (text ++ List.replicate count '/') = pieces text ++ List.replicate count [] := by
  induction count generalizing text with
  | zero => simp
  | succ count ih =>
    have empty := ih []
    rw [List.nil_append] at empty
    rw [List.replicate_succ, pieces_append, empty, List.replicate_succ]
    rfl

theorem way_withoutEndSlash (path : String) : way (withoutEndSlash path) = way path := by
  obtain ⟨count, text, -⟩ := exists_slashes path
  have noStep : stepPieces (List.replicate count []) = [] := by
    simp [stepPieces, Component.ofPiece?]
  have front : start (withoutEndSlash path) = start path := by
    by_cases empty : withoutEndSlash path = ""
    · have nothing : path.toList.rdropWhile (· = '/') = [] := by
        by_contra kept
        have shape := toList_withoutEndSlash path
        rw [if_neg kept, empty] at shape
        exact kept shape.symm
      have same := toList_withoutEndSlash path
      rw [if_pos nothing] at same
      rw [String.toList_inj.mp same]
    · have shape : path = withoutEndSlash path ++ String.ofList (List.replicate count '/') := by
        rw [← String.toList_inj, String.toList_append, String.toList_ofList, text]
      conv_rhs => rw [shape]
      rw [start_append empty]
  rw [way_eq, way_eq path, front, text, pieces_append_slashes, stepPieces_append, noStep,
    List.append_nil]

theorem start_ne_concat {path : String} {front : List Component} {name : String} :
    start path ≠ front ++ [.name name] := by
  intro same
  have last := congrArg List.getLast? same
  rw [List.getLast?_concat, start] at last
  split at last <;> cases last

/-- The last piece of the path that is not empty is a dot. -/
def EndsInDot (path : String) : Prop :=
  ((pieces path.toList).filter (· ≠ [])).getLast? = some ['.']

instance (path : String) : Decidable (EndsInDot path) := inferInstanceAs (Decidable (_ = _))

theorem exists_last_piece {text : List Char} (nonempty : text ≠ [])
    (noSlash : text.getLast? ≠ some '/') :
    ∃ front last, pieces text = front ++ [last] ∧ last ≠ [] := by
  have shape := List.dropLast_concat_getLast (pieces_ne_nil text)
  refine ⟨_, _, shape.symm, fun empty => ?_⟩
  have whole := joinPieces_pieces text
  rw [← shape, empty] at whole
  by_cases alone : (pieces text).dropLast = []
  · rw [alone] at whole
    exact nonempty whole.symm
  · rw [joinPieces_concat alone] at whole
    rw [← whole, List.getLast?_concat] at noSlash
    exact noSlash rfl

/-- Without the slashes at its end, a path ends in its last piece that is not empty, if there is
one. -/
theorem last_piece_cases (path : String) :
    (∃ front last, pieces (withoutEndSlash path).toList = front ++ [last] ∧ last ≠ [] ∧
      ((pieces path.toList).filter (· ≠ [])).getLast? = some last) ∨
    ∀ piece ∈ pieces path.toList, piece = [] := by
  obtain ⟨count, text, either⟩ := exists_slashes path
  by_cases nothing : (withoutEndSlash path).toList = [] ∨ ∀ c ∈ path.toList, c = '/'
  case pos =>
    obtain ⟨size, slashes⟩ : ∃ size, path.toList = List.replicate size '/' := by
      rcases nothing with empty | slashes
      · exact ⟨count, by rw [text, empty, List.nil_append]⟩
      · exact ⟨_, List.eq_replicate_of_mem slashes⟩
    have all := pieces_append_slashes [] size
    rw [List.nil_append, ← slashes] at all
    refine .inr fun piece member => ?_
    rw [all] at member
    rcases List.mem_append.mp member with first | others
    · exact List.mem_singleton.mp first
    · exact List.eq_of_mem_replicate others
  case neg =>
    rw [not_or] at nothing
    obtain ⟨front, last, shape, full⟩ :=
      exists_last_piece nothing.1 (either.resolve_right nothing.2)
    refine .inl ⟨front, last, shape, full, ?_⟩
    have noPieces : (List.replicate count ([] : List Char)).filter (· ≠ []) = [] := by simp
    rw [text, pieces_append_slashes, shape, List.filter_append, List.filter_append, noPieces,
      List.append_nil, List.filter_cons_of_pos (by simpa using full), List.filter_nil,
      List.getLast?_concat]

theorem EndsInDot.getLast?_steps {path : String} (dot : EndsInDot path) :
    (steps (withoutEndSlash path)).getLast? = some .here := by
  unfold EndsInDot at dot
  rcases last_piece_cases path with ⟨front, last, shape, full, ends⟩ | nothing
  · obtain rfl := Option.some.inj (ends.symm.trans dot)
    exact Path.getLast?_steps shape full rfl
  · rw [List.filter_eq_nil_iff.mpr (by simpa using nothing)] at dot
    cases dot

theorem endsInStep_of_not_endsInDot {path : String} (noDot : ¬ EndsInDot path)
    {front : List Component} {name : String} (named : way path = front ++ [.name name]) :
    EndsInStep (withoutEndSlash path) := by
  rcases last_piece_cases path with ⟨before, last, shape, full, ends⟩ | nothing
  · have other : last ≠ ['.'] := by
      rintro rfl
      exact noDot ends
    refine ⟨before, last, ?_⟩
    unfold Component.ofPiece?
    rw [if_neg (by simp [full, other])]
    by_cases up : last = ['.', '.']
    · exact ⟨_, shape, if_pos up⟩
    · exact ⟨_, shape, if_neg up⟩
  · have noStep : stepPieces (pieces path.toList) = [] := by
      refine List.filterMap_eq_nil_iff.mpr fun piece member => ?_
      rw [nothing piece member]
      rfl
    rw [way_eq, noStep, List.append_nil] at named
    exact absurd named start_ne_concat

/-! The directory around the last step. -/

theorem cut_cases (path : String) :
    (∃ rest, path.toList = '/' :: rest ∧ cut path = (some .root, pieces rest)) ∨
    (∃ more, path.toList.head? = some '.' ∧ cut path = (some .here, [] :: more)) ∨
    path.toList.head? ≠ some '/' ∧ cut path = (none, pieces path.toList) := by
  unfold cut
  split
  case h_1 rest shape => exact .inl ⟨rest, shape, rfl⟩
  case h_2 shape => exact .inr (.inl ⟨[], by rw [shape]; rfl, rfl⟩)
  case h_3 rest shape =>
    exact .inr (.inl ⟨pieces rest, by rw [shape]; rfl, by rw [pieces_slash]⟩)
  case h_4 noSlash _ _ =>
    refine .inr (.inr ⟨fun slash => ?_, rfl⟩)
    obtain ⟨rest, shape⟩ := List.head?_eq_some_iff.mp slash
    exact noSlash rest shape

def withPieces (path : String) (kept : List (List Char)) : String :=
  frontText (cut path).1 ++ String.ofList (joinPieces kept)

theorem toList_withPieces (path : String) (kept : List (List Char)) :
    (withPieces path kept).toList = (frontText (cut path).1).toList ++ joinPieces kept := by
  rw [withPieces, String.toList_append, String.toList_ofList]

theorem withPieces_cut (path : String) : withPieces path (cut path).2 = path := by
  obtain ⟨rest, shape, text⟩ := exists_cut path
  rw [← String.toList_inj, toList_withPieces, shape, joinPieces_pieces, text]

theorem joinPieces_front {kept all : List (List Char)} (front : kept <+: all) :
    joinPieces kept <+: joinPieces all := by
  obtain ⟨rest, rfl⟩ := front
  by_cases empty : kept = []
  · subst empty
    exact List.nil_prefix
  · by_cases nothing : rest = []
    · exact ⟨[], by rw [nothing, List.append_nil, List.append_nil]⟩
    · exact ⟨_, (joinPieces_append empty nothing).symm⟩

theorem withPieces_front {path : String} {kept : List (List Char)} (front : kept <+: (cut path).2) :
    (withPieces path kept).toList <+: path.toList := by
  conv_rhs => rw [← withPieces_cut path]
  rw [toList_withPieces, toList_withPieces]
  exact (List.prefix_append_right_inj _).mpr (joinPieces_front front)

theorem noSlash_cut {path : String} {kept : List (List Char)} (front : kept <+: (cut path).2) :
    ∀ piece ∈ kept, '/' ∉ piece := by
  obtain ⟨rest, shape, -⟩ := exists_cut path
  rw [shape] at front
  exact fun piece member => noSlash_pieces rest piece (front.subset member)

theorem stepPieces_joinPieces {kept : List (List Char)} (noSlash : ∀ piece ∈ kept, '/' ∉ piece) :
    stepPieces (pieces (joinPieces kept)) = stepPieces kept := by
  by_cases empty : kept = []
  · subst empty
    rfl
  · rw [pieces_joinPieces noSlash empty]

theorem stepPieces_dot {kept more : List (List Char)} (front : kept <+: [] :: more)
    (noSlash : ∀ piece ∈ kept, '/' ∉ piece) :
    stepPieces (pieces ('.' :: joinPieces kept)) = stepPieces kept := by
  cases kept with
  | nil => rfl
  | cons first rest =>
    obtain rfl : first = [] := (List.cons_prefix_cons.mp front).1
    by_cases empty : rest = []
    · subst empty
      rfl
    · have dot := pieces_append ['.'] (joinPieces rest)
      have later := stepPieces_joinPieces fun piece member =>
        noSlash piece (List.mem_cons_of_mem [] member)
      rw [joinPieces_cons empty, List.nil_append]
      change stepPieces (pieces (['.'] ++ '/' :: joinPieces rest)) = _
      rw [dot, stepPieces_append, later]
      rfl

theorem way_withPieces {path : String} {kept : List (List Char)} (front : kept <+: (cut path).2) :
    way (withPieces path kept) = start path ++ stepPieces kept := by
  have noSlash := noSlash_cut front
  have text := toList_withPieces path kept
  rw [way_eq]
  rcases cut_cases path with ⟨rest, absolute, shape⟩ | ⟨more, dot, shape⟩ | ⟨relative, shape⟩
  · have slash : (frontText (some .root)).toList = ['/'] := by decide
    rw [shape, slash, List.singleton_append] at text
    rw [text, pieces_slash, start_of_slash text, start_of_slash absolute,
      ← stepPieces_joinPieces noSlash]
    rfl
  · have dot' : (frontText (some .here)).toList = ['.'] := by decide
    rw [shape] at front
    rw [shape, dot', List.singleton_append] at text
    rw [start_of_other (by simp [text]), start_of_other (by simp [dot]), text,
      stepPieces_dot front noSlash]
  · have nothing : (frontText none).toList = [] := by decide
    have part := withPieces_front front
    rw [shape, nothing, List.nil_append] at text
    have relative' : (withPieces path kept).toList.head? ≠ some '/' := by
      intro slash
      obtain ⟨rest, begins⟩ := List.head?_eq_some_iff.mp slash
      rw [begins] at part
      obtain ⟨others, whole⟩ := part
      rw [← whole] at relative
      exact relative rfl
    rw [start_of_other relative', start_of_other relative, text, stepPieces_joinPieces noSlash]

theorem endsInStep_withPieces {path : String} {kept : List (List Char)} {last : List Char}
    {step : Component} (front : kept ++ [last] <+: (cut path).2)
    (isStep : Component.ofPiece? last = some step) :
    EndsInStep (withPieces path (kept ++ [last])) := by
  have noSlash := noSlash_cut front
  have text := toList_withPieces path (kept ++ [last])
  by_cases empty : kept = []
  · subst empty
    have alone : pieces last = [last] := pieces_of_noSlash (noSlash last (by simp))
    rcases cut_cases path with ⟨rest, absolute, shape⟩ | ⟨more, dot, shape⟩ | ⟨relative, shape⟩
    · have slash : (frontText (some .root)).toList = ['/'] := by decide
      rw [shape, slash] at text
      refine ⟨[[]], last, step, ?_, isStep⟩
      rw [text]
      change pieces ('/' :: last) = _
      rw [pieces_slash, alone]
      rfl
    · rw [shape] at front
      obtain rfl : last = [] := (List.cons_prefix_cons.mp front).1
      cases isStep
    · have nothing : (frontText none).toList = [] := by decide
      rw [shape, nothing] at text
      refine ⟨[], last, step, ?_, isStep⟩
      rw [text]
      exact alone
  · rw [joinPieces_concat empty, ← List.append_assoc] at text
    have shape := pieces_append ((frontText (cut path).1).toList ++ joinPieces kept) last
    rw [← text, pieces_of_noSlash (noSlash last (by simp))] at shape
    exact ⟨_, last, step, shape, isStep⟩

theorem EndsInStep.withoutEndSlash {path : String} (ends : EndsInStep path) :
    EndsInStep (withoutEndSlash path) := by
  obtain ⟨front, last, step, shape, isStep⟩ := ends
  obtain ⟨count, text, -⟩ := exists_slashes path
  cases count with
  | zero =>
    rw [List.replicate_zero, List.append_nil] at text
    exact ⟨front, last, step, text ▸ shape, isStep⟩
  | succ count =>
    exfalso
    rw [text, pieces_append_slashes, List.replicate_succ', ← List.append_assoc] at shape
    obtain ⟨-, same⟩ := List.append_inj' shape rfl
    rw [← List.head_eq_of_cons_eq same] at isStep
    cases isStep

theorem length_withPieces_lt {path : String} {before kept : List (List Char)} {last : List Char}
    {step : Component} (part : before ++ [last] <+: (cut path).2)
    (isStep : Component.ofPiece? last = some step) (front : kept <+: before) :
    (withPieces path kept).length < path.length := by
  have fewer := (joinPieces_front front).length_le
  have more : (joinPieces before).length < (joinPieces (before ++ [last])).length := by
    by_cases empty : before = []
    · subst empty
      cases last with
      | nil => cases isStep
      | cons c rest => simp [joinPieces]
    · rw [joinPieces_concat empty, List.length_append, List.length_cons]
      omega
  have text := (withPieces_front part).length_le
  rw [toList_withPieces, List.length_append] at text
  rw [← String.length_toList, ← String.length_toList, toList_withPieces, List.length_append]
  omega

/-- The path of the directory around a name: its way is one name shorter, its text is a shorter
front of the text. -/
structure Holds (outer path : String) (front : List Component) : Prop where
  way : Path.way outer = front
  text : outer.toList <+: path.toList
  shorter : outer.length < path.length
  ends : ∀ before name, front = before ++ [.name name] → EndsInStep outer

theorem exists_parent {path : String} {front : List Component} {name : String}
    (named : way path = front ++ [.name name]) :
    ∃ outer, parent? path = some outer ∧ Holds outer path front := by
  have whole : way path = start path ++ stepPieces (trimEnd (cut path).2) := by
    have all := way_withPieces (List.prefix_refl (cut path).2)
    rw [withPieces_cut] at all
    rw [all, stepPieces_trimEnd]
  have nonempty : trimEnd (cut path).2 ≠ [] := by
    intro empty
    rw [whole, empty] at named
    exact start_ne_concat ((List.append_nil _).symm.trans named)
  obtain ⟨before, last, step, shape, isStep⟩ := exists_trimEnd_concat nonempty
  have around : trimEnd before <+: before := trimEnd_front before
  have part : before ++ [last] <+: (cut path).2 := shape ▸ trimEnd_front (cut path).2
  have part' : trimEnd before <+: (cut path).2 :=
    (around.trans (List.prefix_append before [last])).trans part
  have front_ : front = start path ++ stepPieces (trimEnd before) := by
    have oneStep : stepPieces [last] = [step] := by
      rw [stepPieces, List.filterMap_cons_some isStep]
      rfl
    rw [whole, shape, stepPieces_append, oneStep, ← List.append_assoc] at named
    rw [stepPieces_trimEnd]
    exact (List.append_inj' named rfl).1.symm
  refine ⟨withPieces path (trimEnd before), parent?_of_trimEnd shape, ?_, ?_, ?_, ?_⟩
  · rw [way_withPieces part', front_]
  · exact withPieces_front part'
  · exact length_withPieces_lt part isStep around
  · intro before' name' longer
    have nonempty' : trimEnd before ≠ [] := by
      intro empty
      rw [front_, empty] at longer
      exact start_ne_concat ((List.append_nil _).symm.trans longer)
    obtain ⟨kept, last', step', shape', isStep'⟩ := exists_trimEnd_concat nonempty'
    rw [shape'] at part' ⊢
    exact endsInStep_withPieces part' isStep'

/-! Names in directories. -/

structure IsEntryName (name : String) : Prop where
  noSlash : '/' ∉ name.toList
  isStep : Component.ofPiece? name.toList = some (.name name)

namespace IsEntryName

variable {name : String}

theorem relative (isName : IsEntryName name) : isAbsolute name = false := by
  rw [isAbsolute, beq_eq_false_iff_ne]
  exact fun slash => isName.noSlash (List.mem_of_head? slash)

protected theorem way (isName : IsEntryName name) : way name = [.name name] := by
  rw [way_eq, start, isName.relative, pieces_of_noSlash isName.noSlash, stepPieces,
    List.filterMap_cons_some isName.isStep]
  rfl

theorem way_join (isName : IsEntryName name) (base : String) :
    way (join base name) = way base ++ [.name name] := by
  rw [Path.way_join base isName.relative, isName.way]

theorem endsInStep_join (isName : IsEntryName name) (base : String) :
    EndsInStep (join base name) := by
  have alone := pieces_of_noSlash isName.noSlash
  rw [join_of_relative isName.relative]
  by_cases closed : base.isEmpty ∨ base.toList.getLast? = some '/'
  · have none_ : gap base = "" := if_pos closed
    rw [none_, String.append_empty]
    rcases closed with empty | slash
    · rw [String.isEmpty_iff] at empty
      subst empty
      exact ⟨[], _, _, by rw [String.empty_append, alone]; rfl, isName.isStep⟩
    · obtain ⟨front, shape⟩ := List.getLast?_eq_some_iff.mp slash
      refine ⟨pieces front, _, _, ?_, isName.isStep⟩
      rw [String.toList_append, shape, List.append_assoc, List.singleton_append, pieces_append,
        alone]
  · have slash : gap base = "/" := if_neg closed
    have text : "/".toList = ['/'] := by decide
    refine ⟨pieces base.toList, _, _, ?_, isName.isStep⟩
    rw [slash, String.toList_append, String.toList_append, text, List.append_assoc,
      List.singleton_append, pieces_append, alone]

end IsEntryName

/-! What the text of a path alone forbids. -/

/-- What keeps a path from being looked up on any disk. -/
def refusal? (path : String) : Option DiskError :=
  if path.toList.contains '\x00' then some .nulInPath
  else if path.isEmpty then some .notFound
  else if lengthLimit < path.utf8ByteSize then some .nameTooLong
  else none

/-- What keeps a directory from being made on any disk. The empty path stands for one that is
there. -/
def folderRefusal? (path : String) : Option DiskError :=
  if path = "" then none else refusal? path

theorem refusal?_eq_none {path : String} : refusal? path = none ↔
    '\x00' ∉ path.toList ∧ path ≠ "" ∧ path.utf8ByteSize ≤ lengthLimit := by
  unfold refusal?
  split_ifs with nul empty long
  · simp at nul
    simp [nul]
  · simp at empty
    simp [empty]
  · simpa using fun _ _ => long
  · simp at nul empty long
    simp [nul, empty, long]

theorem refusal?_of_front {front path : String} (nonempty : front ≠ "")
    (part : front.toList <+: path.toList) (fine : refusal? path = none) :
    refusal? front = none := by
  rw [refusal?_eq_none] at fine ⊢
  obtain ⟨noNul, -, short⟩ := fine
  obtain ⟨rest, text⟩ := part
  have whole : path = front ++ String.ofList rest := by
    rw [← String.toList_inj, String.toList_append, String.toList_ofList, text]
  refine ⟨fun nul => noNul ?_, nonempty, ?_⟩
  · rw [← text]
    exact List.mem_append_left rest nul
  · rw [whole, String.utf8ByteSize_append] at short
    omega

end DesignLink.Path
