import DesignLink.Project.Outcome
import DesignLink.Proofs.Protocol.Responses

/-!
What becomes of CREATE requests that a command answers. Every run of the command is reported in its
turn, by what it left alone: how it ended and the first value that it printed.
-/

namespace DesignLink

open Wire

def answerLeft {α : Type} (command destination : String) (read : Reader α) :
    Except DiskError Run → Except Failure α
  | .error cause => .error (.command destination (.notStarted command cause))
  | .ok run => run.answer destination read

theorem Responder.call_eq {α : Type} (run : Runner) (command directory destination : String)
    (request : Json) (read : Reader α) (disk : Disk) :
    call run command directory destination request read disk =
      (answerLeft command destination read (run command directory request.compact disk).1,
        (run command directory request.compact disk).2) := by
  unfold call
  split
  case h_1 shape => rw [shape]; rfl
  case h_2 shape => rw [shape]; rfl

theorem answerLeft_eq_ok_iff {α : Type} (command destination : String) (read : Reader α)
    (left : Except DiskError Run) (a : α) :
    answerLeft command destination read left = .ok a ↔
      ∃ run, left = .ok run ∧ run.status = .code 0 ∧
        read (.stream Mode.depthLimit) (Doc.ofBytes run.output) = .ok a := by
  cases left with
  | error cause => exact ⟨nofun, nofun⟩
  | ok run =>
    have answered : run.answer destination read = .ok a ↔ run.status = .code 0 ∧
        read (.stream Mode.depthLimit) (Doc.ofBytes run.output) = .ok a := by
      have isSuccess : run.status.isSuccess = true ↔ run.status = .code 0 := decide_eq_true_iff
      unfold Run.answer
      rw [← isSuccess]
      by_cases success : run.status.isSuccess = true
      · rw [if_pos success, ← toOption_eq_some, toOption_mapError, toOption_eq_some]
        exact ⟨fun ok => ⟨success, ok⟩, fun both => both.2⟩
      · rw [if_neg success]
        exact ⟨nofun, fun both => absurd both.1 success⟩
    rw [answerLeft, answered]
    exact ⟨fun both => ⟨run, rfl, both⟩, fun ⟨_, same, both⟩ => by cases same; exact both⟩

def runsLeft (run : Runner) (command directory : String) :
    List CreateRequest → Disk → List (Except DiskError Run)
  | [], _ => []
  | request :: rest, disk =>
    let (left, disk) := run command directory request.toJson.compact disk
    left :: runsLeft run command directory rest disk

namespace Report

/-- The run succeeded, and the first value that it printed shows a response. -/
def Answered (left : Except DiskError Run) (response : CreateResponse) : Prop :=
  ∃ run, left = .ok run ∧ run.status = .code 0 ∧ response.ShownBy (Doc.ofBytes run.output)

/-- What is reported of a run. A response without an error names the files that were created, one
with an error is a rejection; both keep all messages. Without a response the request failed. -/
inductive Tells (left : Except DiskError Run) : Report → Prop
  | created {destination : String} {response : CreateResponse} (answered : Answered left response)
    (noError : ∀ m ∈ response.messages, m.level ≠ .error) :
    Tells left ⟨destination, response.messages, .created response.files⟩
  | rejected {destination : String} {response : CreateResponse} (answered : Answered left response)
    (hasError : ∃ m ∈ response.messages, m.level = .error) :
    Tells left ⟨destination, response.messages, .rejected⟩
  | failed {destination : String} {failure : Failure} (silent : ∀ response, ¬Answered left response) :
    Tells left ⟨destination, [], .failed failure⟩

theorem hasErrors_iff (messages : List Message) :
    Message.hasErrors messages = true ↔ ∃ m ∈ messages, m.level = .error := by
  simp [Message.hasErrors, Message.isError]

theorem tells_ofAnswer (command destination : String) (left : Except DiskError Run)
    (file : String) :
    Tells left (ofAnswer file (answerLeft command destination CreateResponse.read left)) := by
  have answered (response : CreateResponse) :
      answerLeft command destination CreateResponse.read left = .ok response ↔
        Answered left response := by
    simp only [answerLeft_eq_ok_iff, CreateResponse.read_eq_ok_iff, Answered]
  cases answer : answerLeft command destination CreateResponse.read left with
  | error failure =>
    refine .failed fun response shown => ?_
    rw [(answered response).mpr shown] at answer
    cases answer
  | ok response =>
    have shown := (answered response).mp answer
    rw [ofAnswer]
    by_cases hasErrors : Message.hasErrors response.messages = true
    · rw [if_pos hasErrors]
      exact .rejected shown ((hasErrors_iff _).mp hasErrors)
    · rw [if_neg hasErrors]
      refine .created shown fun m member isError => ?_
      exact hasErrors ((hasErrors_iff _).mpr ⟨m, member, isError⟩)

theorem succeeded_iff (r : Report) : r.succeeded = true ↔ ∃ files, r.status = .created files := by
  unfold succeeded
  cases r.status with
  | created files => exact ⟨fun _ => ⟨files, rfl⟩, fun _ => rfl⟩
  | rejected => exact ⟨nofun, nofun⟩
  | failed failure => exact ⟨nofun, nofun⟩

end Report

namespace Responder

theorem createAll_cons (run : Runner) (command directory : String) (request : CreateRequest)
    (rest : List CreateRequest) (disk : Disk) :
    ((Responder.command command).createAll run directory (request :: rest) disk).1 =
      Report.ofAnswer request.destinationFile
          (answerLeft command request.destination CreateResponse.read
            (run command directory request.toJson.compact disk).1) ::
        ((Responder.command command).createAll run directory rest
          (run command directory request.toJson.compact disk).2).1 := by
  have answer : (Responder.command command).create run directory request disk =
      call run command directory request.destination request.toJson CreateResponse.read disk := rfl
  rw [createAll, answer, call_eq]

theorem forall₂_createAll (run : Runner) (command directory : String) :
    ∀ (requests : List CreateRequest) (disk : Disk),
      List.Forall₂ Report.Tells (runsLeft run command directory requests disk)
        ((Responder.command command).createAll run directory requests disk).1
  | [], _ => .nil
  | request :: rest, disk => by
    rw [createAll_cons]
    exact .cons (Report.tells_ofAnswer _ _ _ _) (forall₂_createAll run command directory rest _)

theorem map_destination_createAll (run : Runner) (command directory : String) :
    ∀ (requests : List CreateRequest) (disk : Disk),
      ((Responder.command command).createAll run directory requests disk).1.map
          Report.destination = requests.map CreateRequest.destinationFile
  | [], _ => rfl
  | request :: rest, disk => by
    have destination (answer : Except Failure CreateResponse) (file : String) :
        (Report.ofAnswer file answer).destination = file := by
      cases answer <;> rfl
    rw [createAll_cons, List.map_cons, List.map_cons, destination,
      map_destination_createAll run command directory rest]

/-- Requests that a command answers are reported in their order, each with the file that was
expected of it and with what its run left. All of them succeeded exactly if every report names
created files, and every report is among those that succeeded or among the others, in order. -/
theorem createAll_tells (run : Runner) (command directory : String)
    (requests : List CreateRequest) (disk : Disk) :
    let outcome : Outcome :=
      ((Responder.command command).createAll run directory requests disk).1
    outcome.map Report.destination = requests.map CreateRequest.destinationFile ∧
      List.Forall₂ Report.Tells (runsLeft run command directory requests disk) outcome ∧
      (outcome.allSucceeded = true ↔ ∀ r ∈ outcome, ∃ files, r.status = .created files) ∧
      (∀ r, r ∈ outcome.succeeded ↔ r ∈ outcome ∧ ∃ files, r.status = .created files) ∧
      (∀ r, r ∈ outcome.failed ↔ r ∈ outcome ∧ ¬∃ files, r.status = .created files) ∧
      outcome.succeeded.Sublist outcome ∧ outcome.failed.Sublist outcome ∧
      (outcome.succeeded ++ outcome.failed).Perm outcome := by
  intro outcome
  have all : outcome.allSucceeded = true ↔ ∀ r ∈ outcome, ∃ files, r.status = .created files := by
    simp only [Outcome.allSucceeded, List.all_eq_true, Report.succeeded_iff]
  have succeeded (r : Report) :
      r ∈ outcome.succeeded ↔ r ∈ outcome ∧ ∃ files, r.status = .created files := by
    rw [Outcome.succeeded, List.mem_filter, Report.succeeded_iff]
  have failed (r : Report) :
      r ∈ outcome.failed ↔ r ∈ outcome ∧ ¬∃ files, r.status = .created files := by
    rw [Outcome.failed, List.mem_filter, ← Report.succeeded_iff, decide_eq_true_eq,
      Bool.not_eq_true]
  have split : (outcome.succeeded ++ outcome.failed).Perm outcome := by
    have others : outcome.failed = outcome.filter fun r => !r.succeeded := by
      simp only [Outcome.failed, Bool.decide_eq_false]
    rw [others]
    exact List.filter_append_perm Report.succeeded outcome
  exact ⟨map_destination_createAll run command directory requests disk,
    forall₂_createAll run command directory requests disk, all, succeeded, failed,
    List.filter_sublist, List.filter_sublist, split⟩

end Responder

end DesignLink
