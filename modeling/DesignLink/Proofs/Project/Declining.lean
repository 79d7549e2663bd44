import DesignLink.Proofs.Disk.Frontier
import DesignLink.Proofs.Project.Orders

/-!
Requests that are declined. The answer says that the file is there if something is at its path, and
also if something else is where a directory around it is to be. Behind a declined request the disk
holds what it held, and the directories that were missing as far as they could be made.
-/

namespace DesignLink.CreateRequest

variable {r : CreateRequest} {directory : String} {disk : Disk} {cause : DiskError}

/-- The path of the directory of the new file and those of the directories around it. -/
def around (r : CreateRequest) (directory : String) : List String :=
  Path.ancestors (r.folder directory).length (r.folder directory)

/-- The answer to a request that would have to write over something. -/
def taken (r : CreateRequest) : CreateResponse :=
  ⟨[], [.error (r.destinationFile ++ " already exists, not overwriting")]⟩

/-- The answer to a request that failed for another cause. -/
def failed (r : CreateRequest) (cause : DiskError) : CreateResponse :=
  ⟨[], [.error (r.destinationFile ++ ": " ++ cause.message)]⟩

/-- What keeps the file from being made: its directory cannot be made, or the file cannot in its
directory. -/
inductive FailsBy (r : CreateRequest) (directory : String) (disk : Disk) (cause : DiskError) :
    Prop where
  | folder (after : Disk)
    (refused : disk.ensureDirectories (r.folder directory) = (.error cause, after))
  | file (after : Disk) (made : disk.ensureDirectories (r.folder directory) = (.ok (), after))
    (refused : after.create (r.path directory) (r.fileText directory).toUTF8 = .error cause)

theorem declined_of_ne (other : cause ≠ .alreadyExists) : r.declined cause = r.failed cause := by
  unfold declined failed
  split
  case h_1 => exact absurd rfl other
  case h_2 => rw [String.append_assoc]

theorem failed_ne_taken (r : CreateRequest) (cause : DiskError) : r.failed cause ≠ r.taken := by
  intro same
  have texts : r.destinationFile ++ ": " ++ cause.message =
      r.destinationFile ++ " already exists, not overwriting" :=
    congrArg Message.text (List.cons.inj (CreateResponse.mk.inj same).2).1
  rw [String.append_assoc, String.append_right_inj, ← String.toList_inj,
    String.toList_append] at texts
  exact absurd (List.cons.inj texts).1 (by decide)

theorem declined_eq_taken_iff : r.declined cause = r.taken ↔ cause = .alreadyExists := by
  constructor
  · intro same
    by_contra other
    rw [declined_of_ne other] at same
    exact failed_ne_taken r cause same
  · rintro rfl
    rfl

theorem write_cases (r : CreateRequest) (directory : String) (disk : Disk) :
    (r.write directory disk).1 = ⟨[r.destinationFile], []⟩ ∨
      ∃ cause, r.FailsBy directory disk cause ∧ (r.write directory disk).1 = r.declined cause := by
  rcases nested : disk.ensureDirectories (r.folder directory) with ⟨result, after⟩
  cases result with
  | error cause => exact .inr ⟨cause, .folder after nested, by rw [write_of_refused nested]⟩
  | ok =>
    cases made : after.create (r.path directory) (r.fileText directory).toUTF8 with
    | error cause =>
      exact .inr ⟨cause, .file after nested made, by rw [write_of_declined nested made]⟩
    | ok disk' => exact .inl (by rw [write_of_created nested made])

theorem FailsBy.write_eq (fails : r.FailsBy directory disk cause) :
    (r.write directory disk).1 = r.declined cause := by
  cases fails with
  | folder after refused => rw [write_of_refused refused]
  | file after made refused => rw [write_of_declined made refused]

/-- The name of the new file, which can hold slashes, leads down from its directory first. -/
def Descends (r : CreateRequest) : Prop :=
  ∃ name rest, Path.way r.connectionName = .name name :: rest

theorem Descends.relative (descends : r.Descends) : Path.isAbsolute r.connectionName = false := by
  obtain ⟨name, rest, shape⟩ := descends
  by_contra absolute
  rw [Path.way_eq, Path.start, if_pos (by simpa using absolute)] at shape
  cases shape

theorem Descends.exists_way (descends : r.Descends) (directory : String) : ∃ name rest,
    Path.way (r.path directory) = Path.way (r.folder directory) ++ .name name :: rest := by
  have relative := descends.relative
  obtain ⟨name, rest, shape⟩ := descends
  exact ⟨name, rest, by rw [path_eq, Path.way_join _ relative, shape]⟩

theorem descends_of_noSlash (noSlash : '/' ∉ r.fileName.toList) : r.Descends := by
  have isName : Path.IsEntryName r.connectionName := by
    refine isEntryName_of_noSlash fun slash => ?_
    simp [connectionName, connectionExtension, noSlash] at slash
  exact ⟨r.connectionName, [], isName.way⟩

theorem write_of_holds (isRooted : disk.IsRooted) (descends : r.Descends)
    (holds : disk.Holds (r.path directory)) :
    (r.write directory disk).1 = r.taken ∧ ¬ disk.IsBarred (r.around directory) := by
  have further : Path.way r.connectionName ≠ [] := by
    obtain ⟨name, rest, shape⟩ := descends
    rw [shape]
    exact List.cons_ne_nil _ rest
  have there : r.folder directory = "" ∨ disk.isDirectory (r.folder directory) = true := by
    by_cases empty : r.folder directory = ""
    · exact .inl empty
    · rw [path_eq] at holds
      exact .inr (Disk.isDirectory_of_holds isRooted descends.relative further empty holds)
  obtain ⟨outer, shape⟩ := Disk.exists_ancestors (r.folder directory).length (r.folder directory)
  obtain ⟨nested, notBarred⟩ := Disk.ensureNested_of_isDirectory isRooted there outer
  rw [← shape] at nested notBarred
  have refused := (Disk.add_eq_alreadyExists (.file (r.fileText directory).toUTF8)).mpr holds
  exact ⟨(FailsBy.file disk nested refused).write_eq, notBarred⟩

theorem write_of_isBarred (barred : disk.IsBarred (r.around directory)) :
    (r.write directory disk).1 = r.taken :=
  (FailsBy.folder disk (Disk.ensureNested_of_isBarred _ barred)).write_eq

theorem holds_or_isBarred_of_taken (isRooted : disk.IsRooted) (descends : r.Descends)
    (ascends : disk.Ascends (r.around directory)) (same : (r.write directory disk).1 = r.taken) :
    disk.Holds (r.path directory) ∨ disk.IsBarred (r.around directory) := by
  have fails : r.FailsBy directory disk .alreadyExists := by
    rcases r.write_cases directory disk with made | ⟨cause, fails, declined⟩
    · rw [made] at same
      cases (CreateResponse.mk.inj same).1
    · rw [declined, declined_eq_taken_iff] at same
      rwa [same] at fails
  obtain ⟨name, rest, below⟩ := descends.exists_way directory
  by_cases there : r.folder directory = "" ∨ disk.isDirectory (r.folder directory) = true
  · obtain ⟨outer, shape⟩ :=
      Disk.exists_ancestors (r.folder directory).length (r.folder directory)
    obtain ⟨nested, -⟩ := Disk.ensureNested_of_isDirectory isRooted there outer
    rw [← shape] at nested
    cases fails with
    | folder after refused => cases nested.symm.trans refused
    | file after made refused =>
      obtain rfl := (Prod.mk.inj (nested.symm.trans made)).2
      exact .inl ((Disk.add_eq_alreadyExists _).mp refused)
  · have fate := Disk.fate isRooted _ _ there le_rfl ascends
    generalize nested : disk.ensureNested (Path.ancestors (r.folder directory).length
      (r.folder directory)) = result at fate
    cases fate with
    | barred barred => exact .inr barred
    | refused cause after other =>
      cases fails with
      | folder after' refused =>
        exact absurd (Except.error.inj (Prod.mk.inj (nested.symm.trans refused)).1) other
      | file after' made refused => cases nested.symm.trans made
    | made after base left enters bare =>
      cases fails with
      | folder after' refused => cases nested.symm.trans refused
      | file after' made refused =>
        obtain rfl := (Prod.mk.inj (nested.symm.trans made)).2
        exact absurd ((Disk.add_eq_alreadyExists _).mp refused) (enters.not_holds below (bare _))

/-- On any disk, with links too, a request whose file is below its directory is answered as one for a
file that is there exactly if something is at the path of the file, or something that is no directory
where a directory around it is to be; both are never the case. All that can go wrong besides is
answered by its own message. The paths around that lead up are to do so from something that is
there. -/
theorem write_taken_iff (r : CreateRequest) (directory : String) (isRooted : disk.IsRooted)
    (descends : r.Descends) (ascends : disk.Ascends (r.around directory)) :
    ((r.write directory disk).1 = r.taken ↔
      disk.Holds (r.path directory) ∨ disk.IsBarred (r.around directory)) ∧
    ¬ (disk.Holds (r.path directory) ∧ disk.IsBarred (r.around directory)) ∧
    ((r.write directory disk).1 = ⟨[r.destinationFile], []⟩ ∨
      (r.write directory disk).1 = r.taken ∨
      ∃ cause ≠ .alreadyExists, r.FailsBy directory disk cause ∧
        (r.write directory disk).1 = r.failed cause) := by
  refine ⟨⟨holds_or_isBarred_of_taken isRooted descends ascends, fun either => ?_⟩, ?_, ?_⟩
  · rcases either with holds | barred
    · exact (write_of_holds isRooted descends holds).1
    · exact write_of_isBarred barred
  · rintro ⟨holds, barred⟩
    exact (write_of_holds isRooted descends holds).2 barred
  · rcases r.write_cases directory disk with made | ⟨cause, fails, declined⟩
    · exact .inl made
    · by_cases present : cause = .alreadyExists
      · exact .inr (.inl (declined.trans (declined_eq_taken_iff.mpr present)))
      · exact .inr (.inr ⟨cause, present, fails, declined.trans (declined_of_ne present)⟩)

def fileForFolder : Disk := ⟨[("ui", .file .empty)], []⟩

theorem isRooted_fileForFolder : fileForFolder.IsRooted := ⟨_, rfl⟩

theorem not_holds_fileForFolder : ¬ fileForFolder.Holds (Disk.badge.path "/") := by
  intro holds
  obtain ⟨place, led, -⟩ := holds
  have stopped : (fileForFolder.entry (Disk.badge.path "/")).toOption = none := by decide +kernel
  rw [led] at stopped
  cases stopped

theorem write_taken_iff_fileForFolder : (Disk.badge.write "/" fileForFolder).1 = Disk.badge.taken ∧
    fileForFolder.IsBarred (Disk.badge.around "/") := by
  have taken : (Disk.badge.write "/" fileForFolder).1 = Disk.badge.taken := by decide +kernel
  have descends : Disk.badge.Descends := descends_of_noSlash (by decide +kernel)
  have noneUp : ∀ path ∈ Disk.badge.around "/", (Path.way path).getLast? ≠ some .up := by
    decide +kernel
  have ascends : fileForFolder.Ascends (Disk.badge.around "/") :=
    fun path member up => absurd up (noneUp path member)
  have either :=
    (write_taken_iff Disk.badge "/" isRooted_fileForFolder descends ascends).1.mp taken
  exact ⟨taken, either.resolve_left not_holds_fileForFolder⟩

/-- A request can be answered as one for a file that is there though nothing is at its path. -/
theorem write_taken_not_held : ¬ ∀ (r : CreateRequest) (directory : String) (disk : Disk),
    disk.IsRooted →
      ((r.write directory disk).1 = r.taken ↔ disk.Holds (r.path directory)) := by
  intro every
  have same : (Disk.badge.write "/" fileForFolder).1 = Disk.badge.taken := by decide +kernel
  exact not_holds_fileForFolder ((every Disk.badge "/" _ isRooted_fileForFolder).mp same)

/-- A request that is declined leaves all files and all that was there besides. New are at most
directories; nothing is new exactly if none was missing that could be made first. -/
theorem write_declined_unchanged_iff (r : CreateRequest) (directory : String)
    (isRooted : disk.IsRooted) (declined : (r.write directory disk).1.messages ≠ []) :
    ((r.write directory disk).2 = disk ↔ ¬ disk.Opens (r.around directory)) ∧
      disk.AddsFolders (r.write directory disk).2 := by
  have same : (r.write directory disk).2 = (disk.ensureNested (r.around directory)).2 := by
    rcases nested : disk.ensureDirectories (r.folder directory) with ⟨result, after⟩
    have after_ : (disk.ensureNested (r.around directory)).2 = after := congrArg Prod.snd nested
    cases result with
    | error cause => rw [write_of_refused nested, after_]
    | ok =>
      cases made : after.create (r.path directory) (r.fileText directory).toUTF8 with
      | error cause => rw [write_of_declined nested made, after_]
      | ok disk' =>
        rw [write_of_created nested made] at declined
        exact absurd rfl declined
  rw [same]
  exact ⟨Disk.ensureNested_unchanged_iff isRooted _,
    (disk.builds_ensureNested _).addsFolders isRooted⟩

def dottedBadge : CreateRequest :=
  .single ⟨.create, "ui/icons/.", none, ⟨"https://design/1", "1:2", "badge", none, none, none⟩,
    .standard⟩

theorem write_dottedBadge : (dottedBadge.write "/" .empty).1 = dottedBadge.failed .notFound ∧
    (dottedBadge.write "/" .empty).2.listing = ["ui/"] := by
  decide +kernel

theorem write_declined_unchanged_iff_dottedBadge :
    (dottedBadge.write "/" .empty).1.messages ≠ [] ∧ Disk.empty.Opens (dottedBadge.around "/") := by
  obtain ⟨failed, made⟩ := write_dottedBadge
  have declined : (dottedBadge.write "/" .empty).1.messages ≠ [] := by
    rw [failed]
    exact List.cons_ne_nil _ []
  have whole := write_declined_unchanged_iff dottedBadge "/" (⟨[], rfl⟩ : Disk.empty.IsRooted)
    declined
  refine ⟨declined, Classical.byContradiction fun closed => ?_⟩
  rw [whole.1.mpr closed] at made
  cases made

theorem write_declined_not_unchanged : ¬ ∀ (r : CreateRequest) (directory : String) (disk : Disk),
    disk.IsRooted → (r.write directory disk).1.messages ≠ [] →
      (r.write directory disk).2 = disk := by
  intro every
  obtain ⟨failed, made⟩ := write_dottedBadge
  rw [every dottedBadge "/" .empty ⟨[], rfl⟩ (by rw [failed]; exact List.cons_ne_nil _ [])] at made
  cases made

end DesignLink.CreateRequest
