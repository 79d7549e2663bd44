import DesignLink.Proofs.Protocol.Outcomes
import DesignLink.Proofs.Wire.Fronts

/-!
Answers of commands. The answer is read from the front of what a command printed: a record that
stands there as a whole document is taken, whatever is printed behind it. Where nothing but white
space stands behind it, exactly the outputs that are one whole document are answers.
-/

namespace DesignLink

open Wire

namespace Wire

theorem Doc.skipSpace_eq_nil_iff (text : List Char) :
    Doc.skipSpace text = [] ↔ ∀ c ∈ text, Doc.IsSpace c := by
  constructor
  · intro none_
    obtain ⟨space, isSpace, shape⟩ := Doc.exists_space text
    rw [shape, none_, List.append_nil]
    exact isSpace
  · intro isSpace
    have skipped := Doc.skipSpace_append isSpace []
    rw [List.append_nil] at skipped
    rw [skipped]
    rfl

theorem Doc.ofBytes_toUTF8 (text : String) :
    Doc.ofBytes text.toUTF8 = (Doc.ofText text.toList .endInString).1 := by
  have decodes : String.fromUTF8? text.toUTF8 = some text := by
    simp only [String.fromUTF8?, String.toUTF8_eq_toByteArray, dif_pos text.isValidUTF8]
    rfl
  rw [Doc.ofBytes, decodes]

namespace Record

variable {α : Type} {name : String} {r : Record α}

theorem ends_of_read {mode : Mode} {doc : Doc} {a : α} (read : r.read name mode doc = .ok a) :
    doc.Ends := by
  obtain ⟨_, -, ⟨members, rfl, -⟩ | ⟨items, rfl, -⟩⟩ := (read_eq_ok_iff name r mode doc a).mp read
  · exact .object _
  · exact .list _

/-- A text is a whole document of a record if the record is read from its first value, and nothing
but white space stands behind that. -/
theorem ofWholeText_eq_ok_iff (text : String) (a : α) :
    Reader.ofWholeText (r.read name) text = .ok a ↔ ∃ doc rest,
      Doc.ofText text.toList .endInString = (doc, .ok rest) ∧
        r.read name (.stream Mode.depthLimit) doc = .ok a ∧ Doc.skipSpace rest = [] := by
  rcases scanned : Doc.ofText text.toList .endInString with ⟨doc, ending⟩
  rw [Reader.ofWholeText, scanned]
  constructor
  · intro ok
    obtain ⟨value, read, ok⟩ := exists_of_bind ok
    cases ending with
    | error fault => cases ok
    | ok rest =>
      dsimp only at ok
      split at ok
      case isFalse => cases ok
      case isTrue none_ =>
        cases ok
        exact ⟨doc, rest, rfl, read, List.isEmpty_iff.mp none_⟩
  · rintro ⟨_, rest, same, read, none_⟩
    cases same
    dsimp only
    rw [read, ok_bind, if_pos (List.isEmpty_iff.mpr none_)]

/-- A record is read from a printed text exactly if the text begins with a whole document of it. -/
theorem ofBytes_eq_ok_iff (text : String) (a : α) :
    Reader.ofBytes (r.read name) text.toUTF8 = .ok a ↔
      ∃ body rest, text = body ++ rest ∧ Reader.ofWholeText (r.read name) body = .ok a := by
  rw [Reader.ofBytes, Doc.ofBytes_toUTF8]
  constructor
  · intro read
    rcases scanned : Doc.ofText text.toList .endInString with ⟨doc, ending⟩
    rw [scanned] at read
    obtain ⟨rest, rfl⟩ := (ends_of_read read).exists_rest scanned
    obtain ⟨used, shape, scans⟩ := Doc.exists_front scanned
    have alone := scans [] ((ends_of_read read).endsBefore [])
    refine ⟨String.ofList used, String.ofList rest, ?_, ?_⟩
    · rw [← String.ofList_append, ← shape, String.ofList_toList]
    · rw [ofWholeText_eq_ok_iff, String.toList_ofList]
      rw [List.append_nil] at alone
      exact ⟨doc, [], alone, read, rfl⟩
  · rintro ⟨body, rest, rfl, whole⟩
    obtain ⟨doc, behind, scanned, read, -⟩ := (ofWholeText_eq_ok_iff body a).mp whole
    obtain ⟨used, shape, scans⟩ := Doc.exists_front scanned
    have longer := scans (behind ++ rest.toList) ((ends_of_read read).endsBefore _)
    rw [← List.append_assoc, ← shape, ← String.toList_append] at longer
    rw [longer]
    exact read

end Record

/-- The bytes are the text of one document, with nothing but white space around it. -/
def Reader.TakesWhole {α : Type} (read : Reader α) (bytes : ByteArray) (a : α) : Prop :=
  ∃ text : String, bytes = text.toUTF8 ∧ ofWholeText read text = .ok a

theorem Reader.takesWhole_toUTF8 {α : Type} (read : Reader α) (text : String) (a : α) :
    read.TakesWhole text.toUTF8 a ↔ read.ofWholeText text = .ok a := by
  constructor
  · rintro ⟨_, same, whole⟩
    cases String.toByteArray_inj.mp same
    exact whole
  · exact fun whole => ⟨text, rfl, whole⟩

/-- Bytes from which nothing is read that is no text, or that has something behind it. -/
structure StandsAlone {α : Type} (read : Reader α) (bytes : ByteArray) : Prop where
  isText : ∀ a, Reader.ofBytes read bytes = .ok a → bytes.IsValidUTF8
  ends : ∀ (body rest : String) (a : α), bytes = (body ++ rest).toUTF8 →
    Reader.ofWholeText read body = .ok a → ∀ c ∈ rest.toList, Doc.IsSpace c

namespace Record

variable {α : Type} {name : String} {r : Record α}

theorem ofWholeText_append {body rest : String} {a : α}
    (whole : Reader.ofWholeText (r.read name) body = .ok a)
    (isSpace : ∀ c ∈ rest.toList, Doc.IsSpace c) :
    Reader.ofWholeText (r.read name) (body ++ rest) = .ok a := by
  obtain ⟨doc, behind, scanned, read, none_⟩ := (ofWholeText_eq_ok_iff body a).mp whole
  obtain ⟨used, shape, scans⟩ := Doc.exists_front scanned
  have longer := scans (behind ++ rest.toList) ((ends_of_read read).endsBefore _)
  rw [← List.append_assoc, ← shape, ← String.toList_append] at longer
  refine (ofWholeText_eq_ok_iff _ a).mpr ⟨doc, _, longer, read, ?_⟩
  rw [Doc.skipSpace_append ((Doc.skipSpace_eq_nil_iff behind).mp none_),
    Doc.skipSpace_eq_nil_iff]
  exact isSpace

/-- A text stands alone if nothing but white space is left behind its first value. -/
theorem standsAlone_of_scan {text : String}
    (isSpace : ∀ rest, (Doc.ofText text.toList .endInString).2 = .ok rest →
      ∀ c ∈ rest, Doc.IsSpace c) :
    StandsAlone (r.read name) text.toUTF8 where
  isText _ _ := text.isValidUTF8
  ends body rest a same whole := by
    have shape : text = body ++ rest := String.toByteArray_inj.mp same
    obtain ⟨doc', behind, scanned', read, -⟩ := (ofWholeText_eq_ok_iff body a).mp whole
    obtain ⟨used, shape', scans⟩ := Doc.exists_front scanned'
    have longer := scans (behind ++ rest.toList) ((ends_of_read read).endsBefore _)
    rw [← List.append_assoc, ← shape', ← String.toList_append, ← shape] at longer
    intro c member
    exact isSpace _ (congrArg Prod.snd longer) c (List.mem_append_right behind member)

theorem ofBytes_eq_ok_iff_takesWhole {bytes : ByteArray}
    (alone : StandsAlone (r.read name) bytes) (a : α) :
    Reader.ofBytes (r.read name) bytes = .ok a ↔ Reader.TakesWhole (r.read name) bytes a := by
  constructor
  · intro read
    have same : bytes = (String.ofByteArray bytes (alone.isText a read)).toUTF8 := rfl
    rw [same, ofBytes_eq_ok_iff] at read
    obtain ⟨body, rest, shape, whole⟩ := read
    rw [shape] at same
    exact ⟨body ++ rest, same, ofWholeText_append whole (alone.ends body rest a same whole)⟩
  · rintro ⟨text, rfl, whole⟩
    exact (ofBytes_eq_ok_iff text a).mpr ⟨text, "", String.append_empty.symm, whole⟩

end Record

end Wire

namespace Run

variable {α : Type} {name : String} {r : Record α}

theorem answer_eq_ok_iff {left : Run} (success : left.status = .code 0) (destination : String)
    (alone : StandsAlone (r.read name) left.output) (a : α) :
    left.answer destination (r.read name) = .ok a ↔
      Reader.TakesWhole (r.read name) left.output a := by
  have isSuccess : left.status.isSuccess = true := decide_eq_true success
  rw [← Record.ofBytes_eq_ok_iff_takesWhole alone, answer, if_pos isSuccess, ← toOption_eq_some,
    toOption_mapError, toOption_eq_some]

theorem answer_of_none {left : Run} (success : left.status = .code 0) (destination : String)
    (alone : StandsAlone (r.read name) left.output)
    (none_ : ∀ a, ¬Reader.TakesWhole (r.read name) left.output a) :
    ∃ refusal, left.answer destination (r.read name) = .error (.violation destination refusal) := by
  have isSuccess : left.status.isSuccess = true := decide_eq_true success
  rw [answer, if_pos isSuccess]
  cases read : Reader.ofBytes (r.read name) left.output with
  | error refusal => exact ⟨refusal, rfl⟩
  | ok a => exact absurd ((Record.ofBytes_eq_ok_iff_takesWhole alone a).mp read) (none_ a)

end Run

namespace Responder

/-- A run that succeeds is answered by the document that it printed, if that is its whole output up
to white space. Any other output violates the protocol, and a request to create a file fails with
it; the requests behind it are handled all the same. -/
theorem call_takesWhole (run : Runner) (command directory : String) (left : Run)
    (success : left.status = .code 0) :
    (∀ {α : Type} (name : String) (r : Record α), StandsAlone (r.read name) left.output →
      ∀ (destination : String) (request : Json) (disk after : Disk),
        run command directory request.compact disk = (.ok left, after) →
        (∀ a, (call run command directory destination request (r.read name) disk).1 = .ok a ↔
          Reader.TakesWhole (r.read name) left.output a) ∧
        ((∀ a, ¬Reader.TakesWhole (r.read name) left.output a) →
          ∃ refusal, (call run command directory destination request (r.read name) disk).1 =
            .error (.violation destination refusal))) ∧
    (StandsAlone CreateResponse.read left.output →
      ∀ (request : CreateRequest) (rest : List CreateRequest) (disk after : Disk),
        run command directory request.toJson.compact disk = (.ok left, after) →
        (∀ response, ¬Reader.TakesWhole CreateResponse.read left.output response) →
          ∃ refusal,
            ((Responder.command command).createAll run directory (request :: rest) disk).1 =
              ⟨request.destinationFile, [], .failed (.violation request.destination refusal)⟩ ::
                ((Responder.command command).createAll run directory rest after).1) := by
  constructor
  · intro α name r alone destination request disk after ran
    rw [call_eq, ran]
    exact ⟨left.answer_eq_ok_iff success destination alone,
      left.answer_of_none success destination alone⟩
  · intro alone request rest disk after ran none_
    obtain ⟨refusal, answer⟩ := left.answer_of_none success request.destination alone none_
    refine ⟨refusal, ?_⟩
    rw [createAll_cons, ran]
    dsimp only [answerLeft]
    rw [CreateResponse.read, answer]
    rfl

def printing (text : String) : Runner := fun _ _ _ disk => (.ok ⟨.code 0, text.toUTF8, .empty⟩, disk)

/-- A run that prints a response without files is answered by it; if the response is cut off, its
request fails. -/
theorem call_takesWhole_cut :
    let request : CreateRequest :=
      .multi ⟨.create, "src", "src/Card.tsx", "Card", [], ⟨.custom, some "cat", none, none⟩⟩
    (call (printing "\x7b\"createdFiles\":[],\"messages\":[]\x7d\n") "cat" "" "src" request.toJson
        CreateResponse.read Disk.empty).1 = .ok ⟨[], []⟩ ∧
      ∃ refusal, ((Responder.command "cat").createAll
          (printing "\x7b\"createdFiles\":[],\"messages\":[]") "" [request] Disk.empty).1 =
        [⟨request.destinationFile, [], .failed (.violation "src" refusal)⟩] := by
  intro request
  constructor
  · generalize shape : "\x7b\"createdFiles\":[],\"messages\":[]\x7d\n" = text
    have ending : (Doc.ofText text.toList .endInString).2 = .ok ['\n'] := by
      rw [← shape]
      decide +kernel
    have whole : (CreateResponse.read.ofWholeText text).toOption = some ⟨[], []⟩ := by
      rw [← shape]
      decide +kernel
    have alone : StandsAlone CreateResponse.read text.toUTF8 := by
      refine Record.standsAlone_of_scan fun rest same c member => ?_
      rw [ending] at same
      cases same
      exact .inr (.inl (List.mem_singleton.mp member))
    have taken := ((call_takesWhole (printing text) "cat" "" ⟨.code 0, text.toUTF8, .empty⟩ rfl).1
      "CreateResponsePayload" _ alone "src" request.toJson Disk.empty Disk.empty rfl).1 ⟨[], []⟩
    exact taken.mpr ((Reader.takesWhole_toUTF8 _ text _).mpr (toOption_eq_some.mp whole))
  · generalize shape : "\x7b\"createdFiles\":[],\"messages\":[]" = text
    have ending : (Doc.ofText text.toList .endInString).2 = .error .endInObject := by
      rw [← shape]
      decide +kernel
    have refused : (CreateResponse.read.ofWholeText text).toOption = none := by
      rw [← shape]
      decide +kernel
    have alone : StandsAlone CreateResponse.read text.toUTF8 := by
      refine Record.standsAlone_of_scan fun rest same => ?_
      rw [ending] at same
      cases same
    refine (call_takesWhole (printing text) "cat" "" ⟨.code 0, text.toUTF8, .empty⟩ rfl).2
      alone request [] Disk.empty Disk.empty rfl fun response whole => ?_
    rw [toOption_eq_some.mpr ((Reader.takesWhole_toUTF8 _ text response).mp whole)] at refused
    cases refused

/-- Behind the first response everything is passed over, an error in a second one too. -/
theorem call_passesOver :
    let text := "\x7b\"createdFiles\":[],\"messages\":[]\x7d" ++
      "\x7b\"createdFiles\":[],\"messages\":[\x7b\"level\":\"ERROR\",\"text\":\"x\"\x7d]\x7d"
    (call (printing text) "cat" "" "src" .null CreateResponse.read Disk.empty).1 = .ok ⟨[], []⟩ ∧
      ∀ response, ¬Reader.TakesWhole CreateResponse.read text.toUTF8 response := by
  intro text
  have first : (CreateResponse.read.ofText text).toOption = some ⟨[], []⟩ := by decide +kernel
  have refused : (CreateResponse.read.ofWholeText text).toOption = none := by decide +kernel
  constructor
  · rw [call_eq, answerLeft_eq_ok_iff]
    refine ⟨_, rfl, rfl, ?_⟩
    rw [Doc.ofBytes_toUTF8]
    exact toOption_eq_some.mp first
  · intro response whole
    rw [toOption_eq_some.mpr ((Reader.takesWhole_toUTF8 _ text response).mp whole)] at refused
    cases refused

end Responder

end DesignLink
