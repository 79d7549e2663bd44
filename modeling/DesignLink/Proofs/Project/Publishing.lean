import Mathlib.Data.List.Forall2
import DesignLink.Project.Responder
import DesignLink.Proofs.Declaration.Origins

/-!
PARSE requests that this program answers itself. Every file and every declaration is accounted for:
with a document or with a message, and the messages name the file.
-/

namespace DesignLink

open Script Declaration

/-- The text starts with the path and a colon. -/
def Names (path text : String) : Prop := ∃ rest, text = path ++ ":" ++ rest

theorem names_colon (path rest : String) : Names path (path ++ ": " ++ rest) := by
  have colon : ": " = ":" ++ " " := rfl
  exact ⟨" " ++ rest, by simp only [colon, String.append_assoc]⟩

theorem Problem.names_display (p : Problem) : Names p.file p.display := by
  refine ⟨s!"{p.location.line}:{p.location.column}: {p.message} [{p.kind.code}]", ?_⟩
  simp [display, toString, String.append_assoc]

def refusalText (path text : String) (diagnosis : Diagnosis) : String :=
  let place := (Source.ofString path text).location (diagnosis.label.getD 0)
  s!"{path}:{place.line}:{place.column}: {diagnosis.message} [{ProblemKind.malformed.code}]"

theorem display_refused [Diagnoses] (path text : String) : (Source.ofString path text).refused.display =
    refusalText path text (Diagnoses.diagnosis text.toList) := rfl

/-- What a declaration adds to a response: its document if it can be read and rendered, otherwise
an error. -/
inductive Declared (path : String) (settings : Settings) :
    Except Problem Connection → Published ⊕ Message → Prop
  | document {connection : Connection} {doc : Published}
    (renders : connection.published path settings = .ok doc) :
    Declared path settings (.ok connection) (.inl doc)
  | unrendered {connection : Connection} {nesting : UnsupportedNesting}
    (fails : connection.published path settings = .error nesting) :
    Declared path settings (.ok connection) (.inr (.error (path ++ ": " ++ nesting.message)))
  | unread {problem : Problem} (here : problem.file = path) :
    Declared path settings (.error problem) (.inr (.error problem.display))

/-- What a file adds to a response: an error if it cannot be read or is no module, otherwise what
its declarations add, in their order. A file without declarations is mentioned on demand. -/
inductive Accounts [Diagnoses] (path : String) (settings : Settings) (verbose : Bool) :
    Except DiskError String → ParseResponse → Prop
  | unreadable (cause : DiskError) :
    Accounts path settings verbose (.error cause) ⟨[], [.error (path ++ ": " ++ cause.message)]⟩
  | malformed {text : String} (noModule : Module.read? text.toList = none) :
    Accounts path settings verbose (.ok text)
      ⟨[], [.error (refusalText path text (Diagnoses.diagnosis text.toList))]⟩
  | declared {text : String} {module : Module} {shares : List (Published ⊕ Message)}
    (isModule : Module.read? text.toList = some module)
    (each : List.Forall₂ (Declared path settings)
      ((connectCalls (.ofString path text) module).map (connectionOfCall (.ofString path text)))
      shares)
    (silent : shares = [] → verbose = false) :
    Accounts path settings verbose (.ok text)
      ⟨shares.filterMap Sum.getLeft?, shares.filterMap Sum.getRight?⟩
  | empty {text : String} {module : Module}
    (isModule : Module.read? text.toList = some module)
    (noCalls : connectCalls (.ofString path text) module = []) (mentioned : verbose = true) :
    Accounts path settings verbose (.ok text)
      ⟨[], [.info (path ++ ": no figma.connect calls found")]⟩

namespace ParseResponse

/-- What a declaration adds, as a response of its own. -/
def ofShare : Published ⊕ Message → ParseResponse
  | .inl doc => .document doc
  | .inr message => ⟨[], [message]⟩

theorem append_join (a b : List ParseResponse) : append (join a) (join b) = join (a ++ b) := by
  induction a with
  | nil => rfl
  | cons response rest ih =>
    have whole : join (response :: rest ++ b) = append response (join (rest ++ b)) := rfl
    rw [whole, ← ih]
    simp [join, append, List.append_assoc]

theorem join_map_ofShare (shares : List (Published ⊕ Message)) :
    join (shares.map ofShare) =
      ⟨shares.filterMap Sum.getLeft?, shares.filterMap Sum.getRight?⟩ := by
  induction shares with
  | nil => rfl
  | cons share rest ih =>
    have whole : join ((share :: rest).map ofShare) = append (ofShare share)
      (join (rest.map ofShare)) := rfl
    rw [whole, ih]
    cases share <;> rfl

end ParseResponse

/-! One declaration, one file, a list of files. -/

variable {path : String} {settings : Settings} {verbose : Bool}

theorem exists_share (settings : Settings) {x : Except Problem Connection}
    (blames : Blames path x) :
    ∃ share, Declared path settings x share ∧
      publishDeclaration path settings x = .ofShare share := by
  cases x with
  | error problem => exact ⟨_, .unread (blames problem rfl), rfl⟩
  | ok connection =>
    cases renders : connection.published path settings with
    | error nesting =>
      refine ⟨_, .unrendered renders, ?_⟩
      simp only [publishDeclaration, renders]
      rfl
    | ok doc =>
      refine ⟨_, .document renders, ?_⟩
      simp only [publishDeclaration, renders]
      rfl

theorem exists_shares (settings : Settings) : ∀ {declarations : List (Except Problem Connection)},
    (∀ x ∈ declarations, Blames path x) →
      ∃ shares, List.Forall₂ (Declared path settings) declarations shares ∧
        declarations.map (publishDeclaration path settings) = shares.map .ofShare
  | [], _ => ⟨[], .nil, rfl⟩
  | x :: rest, blame => by
    obtain ⟨share, declared, adds⟩ := exists_share settings (blame x List.mem_cons_self)
    obtain ⟨shares, each, add⟩ :=
      exists_shares settings fun y later => blame y (List.mem_cons_of_mem x later)
    refine ⟨share :: shares, .cons declared each, ?_⟩
    rw [List.map_cons, List.map_cons, adds, add]

theorem publishText_of_declared [Diagnoses] {text : String} {x : Except Problem Connection}
    {rest : List (Except Problem Connection)} (read : readConnections path text = .ok (x :: rest)) :
    publishText path text settings verbose =
      .join ((x :: rest).map (publishDeclaration path settings)) := by
  rw [publishText, read]

theorem accounts_publishText [Diagnoses] (path text : String) (settings : Settings)
    (verbose : Bool) :
    Accounts path settings verbose (.ok text) (publishText path text settings verbose) := by
  have source : (Source.ofString path text).text = text.toList := rfl
  cases isModule : Module.read? text.toList with
  | none =>
    have refused : readConnections path text = .error (Source.ofString path text).refused := by
      simp only [readConnections, source, isModule]
    have adds : publishText path text settings verbose =
        .error (Source.ofString path text).refused.display := by
      rw [publishText, refused]
    rw [adds, display_refused]
    exact .malformed isModule
  | some module =>
    have read : readConnections path text =
        .ok ((connectCalls (.ofString path text) module).map
          (connectionOfCall (.ofString path text))) := by
      simp only [readConnections, source, isModule]
    have blame : ∀ x ∈ (connectCalls (.ofString path text) module).map
        (connectionOfCall (.ofString path text)), Blames path x := by
      intro x among
      obtain ⟨call, -, rfl⟩ := List.mem_map.mp among
      exact blames_connectionOfCall (.ofString path text) call
    obtain ⟨shares, each, add⟩ := exists_shares settings blame
    have declared : (shares = [] → verbose = false) → Accounts path settings verbose (.ok text)
        ⟨shares.filterMap Sum.getLeft?, shares.filterMap Sum.getRight?⟩ :=
      .declared isModule each
    cases calls : connectCalls (.ofString path text) module with
    | nil =>
      rw [calls] at read each
      obtain rfl := List.forall₂_nil_left_iff.mp each
      rw [publishText, read]
      cases verbose with
      | true => exact .empty isModule calls rfl
      | false => exact declared fun _ => rfl
    | cons call rest =>
      rw [calls] at read each add
      have present : shares ≠ [] := by
        rintro rfl
        cases each
      rw [publishText_of_declared read, ← List.map_cons, add, ParseResponse.join_map_ofShare]
      exact declared fun absent => absurd absent present

theorem Declared.names {x : Except Problem Connection} {message : Message}
    (declared : Declared path settings x (.inr message)) : Names path message.text := by
  cases declared with
  | unrendered fails => exact names_colon path _
  | unread here =>
    rw [← here]
    exact Problem.names_display _

theorem names_of_mem_shares {declarations : List (Except Problem Connection)}
    {shares : List (Published ⊕ Message)} {message : Message}
    (each : List.Forall₂ (Declared path settings) declarations shares)
    (among : .inr message ∈ shares) : Names path message.text := by
  induction each with
  | nil => cases among
  | cons declared rest ih =>
    rcases List.mem_cons.mp among with rfl | later
    · exact declared.names
    · exact ih later

theorem Accounts.names [Diagnoses] {content : Except DiskError String} {response : ParseResponse}
    (accounts : Accounts path settings verbose content response) :
    ∀ message ∈ response.messages, Names path message.text := by
  intro message among
  cases accounts with
  | unreadable cause =>
    obtain rfl := List.mem_singleton.mp among
    exact names_colon path _
  | @malformed text noModule =>
    obtain rfl := List.mem_singleton.mp among
    have named := Problem.names_display (Source.ofString path text).refused
    rwa [display_refused] at named
  | declared isModule each silent =>
    obtain ⟨share, added, isMessage⟩ := List.mem_filterMap.mp among
    obtain rfl := Sum.getRight?_eq_some_iff.mp isMessage
    exact names_of_mem_shares each added
  | empty isModule noCalls mentioned =>
    obtain rfl := List.mem_singleton.mp among
    change Names path (path ++ (": " ++ "no figma.connect calls found"))
    rw [← String.append_assoc]
    exact names_colon path _

theorem Disk.accounts_publishFile [Diagnoses] (disk : Disk) (directory path : String)
    (settings : Settings) (verbose : Bool) :
    Accounts path settings verbose (disk.readText (Path.join directory path))
      (disk.publishFile directory settings verbose path) := by
  unfold Disk.publishFile
  cases disk.readText (Path.join directory path) with
  | error cause => exact .unreadable cause
  | ok text => exact accounts_publishText path text settings verbose

/-- PARSE requests that this program answers itself always get a response, and leave the files as
they are. The response to some paths followed by others is that to the former followed by that to
the latter; a path on its own is accounted for by its file, and all its messages name it. -/
theorem Responder.native_parse_accounts [Diagnoses] (run : Runner) (directory : String)
    (mode : RequestMode) (options : ParseOptions) (settings : Settings) (disk : Disk) :
    ∃ answer : List String → ParseResponse,
      (∀ paths, native.parse run directory ⟨mode, paths, options, settings⟩ disk =
        (.ok (answer paths), disk)) ∧
      (∀ paths others,
        (answer (paths ++ others)).documents =
          (answer paths).documents ++ (answer others).documents ∧
        (answer (paths ++ others)).messages =
          (answer paths).messages ++ (answer others).messages) ∧
      ∀ path,
        Accounts path settings options.verbose (disk.readText (Path.join directory path))
          (answer [path]) ∧
        ∀ message ∈ (answer [path]).messages, ∃ rest, message.text = path ++ ":" ++ rest := by
  refine ⟨fun paths => disk.publishFiles directory ⟨mode, paths, options, settings⟩,
    fun _ => rfl, fun paths others => ?_, fun path => ?_⟩
  · have whole : disk.publishFiles directory ⟨mode, paths ++ others, options, settings⟩ =
        .append (disk.publishFiles directory ⟨mode, paths, options, settings⟩)
          (disk.publishFiles directory ⟨mode, others, options, settings⟩) := by
      simp only [Disk.publishFiles, List.map_append, ParseResponse.append_join]
    dsimp only
    rw [whole]
    exact ⟨rfl, rfl⟩
  · have alone : disk.publishFiles directory ⟨mode, [path], options, settings⟩ =
        disk.publishFile directory settings options.verbose path := by
      simp [Disk.publishFiles, ParseResponse.join, ParseResponse.append]
    have accounts := disk.accounts_publishFile directory path settings options.verbose
    dsimp only
    rw [alone]
    exact ⟨accounts, accounts.names⟩

end DesignLink
