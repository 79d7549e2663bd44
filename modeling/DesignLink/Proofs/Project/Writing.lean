import DesignLink.Proofs.Disk.Growth
import DesignLink.Project.ConnectionFile

/-!
How requests change a disk. A request makes one new file or none, and whatever requests follow, a
file stays as it is.
-/

namespace DesignLink

namespace Path

theorem isAbsolute_append {front : String} (nonempty : front ≠ "") (back : String) :
    isAbsolute (front ++ back) = isAbsolute front := by
  cases shape : front.toList with
  | nil => exact absurd (String.toList_eq_nil_iff.mp shape) nonempty
  | cons c rest => simp [isAbsolute, shape]

/-- What stands between a directory and a path in it. -/
def gap (base : String) : String :=
  if base.isEmpty ∨ base.toList.getLast? = some '/' then "" else "/"

theorem gap_empty : gap "" = "" := by decide

theorem join_of_relative {path : String} (relative : isAbsolute path = false) (base : String) :
    join base path = base ++ gap base ++ path := by
  unfold join gap
  rw [relative, if_neg Bool.false_ne_true]
  by_cases closed : base.isEmpty ∨ base.toList.getLast? = some '/'
  · rw [if_pos closed, if_pos closed, String.append_empty]
  · rw [if_neg closed, if_neg closed]

theorem gap_append {back : String} (nonempty : back ≠ "") (front : String) :
    gap (front ++ back) = gap back := by
  obtain ⟨c, rest, shape⟩ := List.exists_cons_of_ne_nil
    (fun empty => nonempty (String.toList_eq_nil_iff.mp empty) : back.toList ≠ [])
  have last : (front ++ back).toList.getLast? = back.toList.getLast? := by
    rw [String.toList_append, List.getLast?_append, shape, List.getLast?_cons]
    rfl
  have nonempty' : front ++ back ≠ "" := by
    intro empty
    rw [← String.toList_eq_nil_iff, String.toList_append, shape] at empty
    simp at empty
  unfold gap
  simp only [String.isEmpty_iff, nonempty, nonempty', last]

theorem gap_append_gap (base : String) : gap (base ++ gap base) = "" := by
  by_cases closed : base.isEmpty ∨ base.toList.getLast? = some '/'
  · have nothing : gap base = "" := if_pos closed
    rw [nothing, String.append_empty, nothing]
  · have slash : gap base = "/" := if_neg closed
    rw [slash, gap_append (by decide)]
    decide

theorem join_join (base directory path : String) :
    join (join base directory) path = join base (join directory path) := by
  by_cases absolute : isAbsolute path = true
  · simp only [join, absolute, if_true]
  · rw [Bool.not_eq_true] at absolute
    rw [join_of_relative absolute directory, join_of_relative absolute (join base directory)]
    by_cases empty : directory = ""
    · subst empty
      have relative : isAbsolute "" = false := by decide
      rw [gap_empty, String.append_empty, String.empty_append, join_of_relative absolute,
        join_of_relative relative, String.append_empty, gap_append_gap, String.append_empty]
    · have front := isAbsolute_append empty (gap directory ++ path)
      rw [← String.append_assoc] at front
      by_cases top : isAbsolute directory = true
      · rw [top] at front
        simp only [join, front, top, if_true]
      · rw [Bool.not_eq_true] at top
        rw [top] at front
        rw [join_of_relative front, join_of_relative top, gap_append empty]
        simp only [String.append_assoc]

end Path

namespace CreateRequest

/-- Where the file of a request stands: what is reported, taken from the project directory. -/
def path (r : CreateRequest) (directory : String) : String := Path.join directory r.destinationFile

/-- The request made its file, which was not there before. -/
structure Creates (r : CreateRequest) (directory : String) (before : Disk)
    (response : CreateResponse) (after : Disk) : Prop where
  files : response.files = [r.destinationFile]
  messages : response.messages = []
  content : after.read (r.path directory) = .ok (r.fileText directory).toUTF8
  new : ∃ place, after.entry (r.path directory) = .ok place ∧ before.tree.at? place = none ∧
    ∀ asked found, after.HasFile asked found ↔
      before.HasFile asked found ∨ asked = place ∧ found = (r.fileText directory).toUTF8

/-- The request was declined, and no file was made. -/
structure Declines (before : Disk) (response : CreateResponse) (after : Disk) : Prop where
  files : response.files = []
  messages : ∃ message, response.messages = [message] ∧ message.level = .error
  sameFiles : before.SameFiles after

variable {r : CreateRequest} {directory : String} {disk : Disk}

theorem declines_declined (r : CreateRequest) (cause : DiskError) {after : Disk}
    (sameFiles : disk.SameFiles after) : Declines disk (r.declined cause) after where
  files := rfl
  messages := ⟨_, rfl, rfl⟩
  sameFiles := sameFiles

theorem write_step (r : CreateRequest) (directory : String) (isRooted : disk.IsRooted) :
    disk.Grows (r.write directory disk).2 ∧
      (r.Creates directory disk (r.write directory disk).1 (r.write directory disk).2 ∨
        Declines disk (r.write directory disk).1 (r.write directory disk).2) := by
  have folders := disk.growsEmpty_ensureDirectories (Path.join directory r.destination)
  unfold write
  dsimp only
  split
  case h_1 cause folded made =>
    rw [made] at folders
    exact ⟨folders.toGrows, .inr (r.declines_declined cause folders.sameFiles)⟩
  case h_2 folded made =>
    rw [made] at folders
    have path : Path.join (Path.join directory r.destination)
        (r.fileName ++ "." ++ connectionExtension) = r.path directory := Path.join_join _ _ _
    rw [path]
    split
    case h_1 cause refused =>
      exact ⟨folders.toGrows, .inr (r.declines_declined cause folders.sameFiles)⟩
    case h_2 after created =>
      obtain ⟨place, led, absent, grows, files⟩ :=
        Disk.grows_of_create (folders.toGrows.isRooted isRooted) created
      have led' := grows.entry led
      have absent' := folders.toGrows.absent absent
      refine ⟨folders.toGrows.trans grows, .inl ⟨rfl, rfl, ?_, place, led', absent', ?_⟩⟩
      · exact Disk.read_of_entry led' ((files place _).mpr (.inr ⟨rfl, rfl⟩))
      · intro asked found
        rw [files, folders.sameFiles]

end CreateRequest

namespace Disk

/-- The disk behind requests that were handled one after the other, each for its project
directory. -/
def afterRequests (disk : Disk) : List (String × CreateRequest) → Disk
  | [] => disk
  | (directory, request) :: rest => (request.write directory disk).2.afterRequests rest

theorem afterRequests_append (front back : List (String × CreateRequest)) (disk : Disk) :
    disk.afterRequests (front ++ back) = (disk.afterRequests front).afterRequests back := by
  induction front generalizing disk with
  | nil => rfl
  | cons first rest ih => exact ih _

theorem grows_afterRequests (requests : List (String × CreateRequest)) :
    ∀ disk : Disk, disk.IsRooted → disk.Grows (disk.afterRequests requests) := by
  induction requests with
  | nil => exact fun disk _ => .refl disk
  | cons first rest ih =>
    intro disk isRooted
    have step := (first.2.write_step first.1 isRooted).1
    exact step.trans (ih _ (step.isRooted isRooted))

/-- Requests never write over a file: a file that is there at any point stays as it is, and each
request either makes exactly the file that it reports or makes none. -/
theorem requests_never_overwrite {disk : Disk} (isRooted : disk.IsRooted)
    (earlier later : List (String × CreateRequest)) (directory : String) (r : CreateRequest) :
    (∀ place content, (disk.afterRequests earlier).HasFile place content →
      (disk.afterRequests (earlier ++ later)).HasFile place content) ∧
    (r.Creates directory (disk.afterRequests earlier)
        (r.write directory (disk.afterRequests earlier)).1
        (disk.afterRequests (earlier ++ [(directory, r)])) ∨
      CreateRequest.Declines (disk.afterRequests earlier)
        (r.write directory (disk.afterRequests earlier)).1
        (disk.afterRequests (earlier ++ [(directory, r)]))) := by
  have rooted := (grows_afterRequests earlier disk isRooted).isRooted isRooted
  rw [afterRequests_append, afterRequests_append]
  constructor
  · intro place content hasFile
    exact (grows_afterRequests later _ rooted).hasFile hasFile
  · exact (r.write_step directory rooted).2

def badge : CreateRequest :=
  .single ⟨.create, "ui", none, ⟨"https://design/1", "1:2", "badge", none, none, none⟩,
    .standard⟩

theorem requests_never_overwrite_badge : Disk.empty.IsRooted ∧
    badge.Creates "project" .empty (badge.write "project" .empty).1
      (badge.write "project" .empty).2 ∧
    CreateRequest.Declines (badge.write "project" .empty).2
      (badge.write "project" (badge.write "project" .empty).2).1
      (badge.write "project" (badge.write "project" .empty).2).2 := by
  have isRooted : Disk.empty.IsRooted := ⟨[], rfl⟩
  have made : (badge.write "project" .empty).1.files.length = 1 := by decide +kernel
  have declined : (badge.write "project" (badge.write "project" .empty).2).1.files.length = 0 := by
    decide +kernel
  have first := (requests_never_overwrite isRooted [] [] "project" badge).2
  have second := (requests_never_overwrite isRooted [("project", badge)] [] "project" badge).2
  simp only [afterRequests, List.nil_append, List.cons_append] at first second
  refine ⟨isRooted, first.resolve_right fun declines => ?_, second.resolve_left fun creates => ?_⟩
  · rw [declines.files] at made
    cases made
  · rw [creates.files] at declined
    cases declined

end Disk

end DesignLink
