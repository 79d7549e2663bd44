import DesignLink.Proofs.Disk.Folders

/-!
Directories whose paths end in a dot. Such a path asks for a directory that is there, so none is
made for it: where it is missing, the directories around it are made and the rest fails, each time
in the same way.
-/

namespace DesignLink.Disk

open FileTree (folders)

variable {disk : Disk} {path : String} {base : Place} {names : List String}

theorem makeDirectory_of_dot (plain : disk.Plain) (led : disk.LeadsBy path base names)
    (dot : Path.EndsInDot path) (fine : Path.refusal? path = none) : disk.makeDirectory path =
      (disk.tree.track base (names.map .name ++ [.here])).bind fun place =>
        if disk.tree.kindAt place = none then .ok (disk.fill place (.directory []))
        else .error .alreadyExists := by
  obtain ⟨front, shape, led⟩ := led
  have filtered := FileTree.track_filter_dot plain.noLinks _ disk.here dot.getLast?_steps
  have way : (Path.steps (Path.withoutEndSlash path)).filter (· ≠ .here) =
      front ++ names.map .name := (Path.way_withoutEndSlash path).trans shape
  rw [way, List.append_assoc,
    FileTree.track_through plain.noLinks _ front disk.here led] at filtered
  rw [makeDirectory_of_track plain fine, filtered]

theorem exists_refusal_of_dot (plain : disk.Plain) (led : disk.LeadsBy path base names)
    (dot : Path.EndsInDot path) (fine : Path.refusal? path = none)
    (missing : disk.isDirectory path = false) :
    ∃ cause, disk.makeDirectory path = .error cause := by
  have made := makeDirectory_of_dot plain led dot fine
  cases FileTree.exists_course plain.noLinks names base with
  | clear through _ _ =>
    have isDirectory := (led.isDirectory_iff plain fine).mpr through
    rw [missing] at isDirectory
    cases isDirectory
  | blocked stops _ _ _ =>
    rw [stops _ (List.cons_ne_nil _ [])] at made
    exact ⟨_, made⟩
  | missing stops _ =>
    rw [stops _ (List.cons_ne_nil _ [])] at made
    exact ⟨_, made⟩

/-- What refuses a directory is what is in the way of those around it, unless something is
missing. -/
theorem eq_of_refused_dot {last : String} {cause stop : DiskError} (plain : disk.Plain)
    (led : disk.LeadsBy path base (names ++ [last])) (dot : Path.EndsInDot path)
    (fine : Path.refusal? path = none) (refused : disk.makeDirectory path = .error cause)
    (other : cause ≠ .notFound) (blocked : disk.tree.blockade base names = some stop) :
    stop = cause := by
  have made := makeDirectory_of_dot plain led dot fine
  have back : ([last].map .name ++ [.here] : List Path.Component) ≠ [] := by simp
  rw [List.map_append, List.append_assoc, refused] at made
  cases FileTree.exists_course plain.noLinks names base with
  | clear _ free _ => cases blocked.symm.trans free
  | blocked stops _ blocked' _ =>
    rw [stops _ back] at made
    exact (Option.some.inj (blocked.symm.trans blocked')).trans (Except.error.inj made).symm
  | missing stops _ =>
    rw [stops _ back] at made
    exact absurd (Except.error.inj made) other

theorem isDirectory_fillAll_of_absent {last : String} (plain : disk.Plain)
    (led : disk.LeadsBy path base (names ++ [last])) (fine : Path.refusal? path = none)
    (absent : disk.tree.kindAt (base ++ names ++ [last]) = none) :
    (disk.fillAll (folders (disk.tree.openings base names))).isDirectory path = false := by
  have isDirectory := led.isDirectory plain
  have grounded := FileTree.grounded_own_openings plain.noLinks isDirectory names
  have plain' := plain.fillAll grounded noLink_folders
  have led' := led.fillAll grounded
  rw [Bool.eq_false_iff]
  intro found
  have through := (led'.isDirectory_iff plain' fine).mp found
  have held := FileTree.isDirectory_through rfl _ _ (led'.isDirectory plain') through
  rw [(tree_fillAll (folders (disk.tree.openings base names)) disk).1, ← List.append_assoc,
    FileTree.kindAt_fillAll_below plain.noLinks isDirectory, absent] at held
  cases held

/-- Where nothing is, the directories around are made, and what then fails fails again. -/
theorem ensureNested_of_missing_dot {last outer : String} {fuel : Nat} (plain : disk.Plain)
    (led : disk.LeadsBy path base (names ++ [last])) (dot : Path.EndsInDot path)
    (fine : Path.refusal? path = none) (around : disk.Approaches outer base names)
    (fine' : outer ≠ "" → Path.refusal? outer = none) (enough : outer.length ≤ fuel)
    (absent : disk.tree.kindAt (base ++ names ++ [last]) = none)
    (noFile : disk.tree.kindAt (base ++ names) ≠ some .file)
    (made : disk.makeDirectory path = .error .notFound) :
    ∃ cause, ∃ after : Disk,
      disk.ensureNested (path :: Path.ancestors fuel outer) = (.error cause, after) ∧
      after.ensureNested (path :: Path.ancestors fuel outer) = (.error cause, after) := by
  have nonempty : path ≠ "" := (Path.refusal?_eq_none.mp fine).2.1
  have nested := ensureNested_eq plain names fuel outer base around fine' enough
  have again := ensureNested_again plain around fine' enough
  have grounded := FileTree.grounded_own_openings plain.noLinks (led.isDirectory plain) names
  have plain' := plain.fillAll grounded noLink_folders
  have led' := led.fillAll grounded
  have noDirectory := isDirectory_fillAll_of_absent plain led fine absent
  rw [FileTree.obstacle_eq_blockade noFile] at nested again
  obtain ⟨cause, refused⟩ := exists_refusal_of_dot plain' led' dot fine noDirectory
  cases blocked : disk.tree.blockade base names with
  | none =>
    rw [blocked] at nested again
    have settled : (disk.fillAll (folders (disk.tree.openings base names))).settle
        ((disk.fillAll (folders (disk.tree.openings base names))).ensureDirectory path) =
          (.error cause, disk.fillAll (folders (disk.tree.openings base names))) := by
      rw [ensureDirectory_of_not_made refused, noDirectory, if_neg Bool.false_ne_true]
      rfl
    refine ⟨cause, _, (ensureNested_of_missing nonempty made nested).trans settled, ?_⟩
    by_cases missing : cause = .notFound
    · subst missing
      exact (ensureNested_of_missing nonempty refused again).trans settled
    · exact ensureNested_of_refused nonempty refused missing noDirectory
  | some stop =>
    rw [blocked] at nested again
    refine ⟨stop, _, ensureNested_of_stuck nonempty made nested, ?_⟩
    by_cases missing : cause = .notFound
    · subst missing
      exact ensureNested_of_stuck nonempty refused again
    · -- What stops the directories around stops this one as well, now that they are there.
      have sameBlockade := (@FileTree.blockade_congr disk.tree
        (disk.fillAll (folders (disk.tree.openings base names))).tree names base fun above _ => by
          rw [(tree_fillAll (folders (disk.tree.openings base names)) disk).1,
            FileTree.isFile_fillAll_folders grounded]).1
      obtain rfl := eq_of_refused_dot plain' led' dot fine refused missing
        (sameBlockade.symm.trans blocked)
      exact ensureNested_of_refused nonempty refused missing noDirectory

/-- A directory that is missing and whose path ends in a dot is refused again and again. -/
theorem ensureDirectories_of_dot (plain : disk.Plain) (led : disk.LeadsBy path base names)
    (dot : Path.EndsInDot path) (missing : disk.isDirectory path = false) :
    ∃ cause, ∃ after : Disk, disk.ensureDirectories path = (.error cause, after) ∧
      after.ensureDirectories path = (.error cause, after) := by
  cases refused : Path.folderRefusal? path with
  | some cause =>
    exact ⟨cause, disk, ensureDirectories_refused refused disk,
      ensureDirectories_refused refused disk⟩
  | none =>
    have nonempty : path ≠ "" := by
      rintro rfl
      exact absurd dot (by decide)
    have fine : Path.refusal? path = none := by
      rwa [Path.folderRefusal?, if_neg nonempty] at refused
    obtain ⟨names, last, rfl⟩ : ∃ before last, names = before ++ [last] := by
      rcases List.eq_nil_or_concat' names with rfl | shape
      · have isDirectory := (led.isDirectory_iff plain fine).mpr (by rw [List.append_nil]; rfl)
        rw [missing] at isDirectory
        cases isDirectory
      · exact shape
    obtain ⟨outer, parent, around, text, shorter⟩ := led.parent
    obtain ⟨fuel, size⟩ : ∃ fuel, path.length = fuel + 1 := ⟨path.length - 1, by omega⟩
    have shape : Path.ancestors path.length path = path :: Path.ancestors fuel outer := by
      rw [size, Path.ancestors, parent]
    have fine' : outer ≠ "" → Path.refusal? outer = none := fun filled =>
      Path.refusal?_of_front filled text fine
    have made := makeDirectory_of_dot plain led dot fine
    unfold ensureDirectories
    rw [shape]
    cases FileTree.exists_course plain.noLinks (names ++ [last]) base with
    | clear through _ _ =>
      have isDirectory := (led.isDirectory_iff plain fine).mpr through
      rw [missing] at isDirectory
      cases isDirectory
    | blocked stops other _ _ =>
      rw [stops _ (List.cons_ne_nil _ [])] at made
      have refused := @ensureNested_of_refused disk path (Path.ancestors fuel outer) _ nonempty made
        other missing
      exact ⟨_, disk, refused, refused⟩
    | missing stops absent =>
      have stopped := stops [.here] (List.cons_ne_nil _ [])
      rw [stopped] at made
      have absent' := absent []
      rw [List.append_nil, ← List.append_assoc] at absent'
      rw [List.map_append, List.append_assoc] at stopped
      have noFile := FileTree.not_isFile_of_missing plain.noLinks rfl (led.isDirectory plain)
        (by simp) stopped
      exact ensureNested_of_missing_dot plain led dot fine around fine' (by omega) absent' noFile
        made

end DesignLink.Disk
