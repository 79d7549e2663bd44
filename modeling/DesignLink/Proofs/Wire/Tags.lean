import DesignLink.Proofs.Wire.Fields
import DesignLink.Wire.Tagged

/-!
Tags and tagged values, from what was read of a document back to the document.
-/

namespace DesignLink.Wire.Tagged

variable {α : Type} {options : List (String × α)} {a : α}

theorem lookUp_eq_ok_iff (options : List (String × α)) (name : String) (a : α) :
    lookUp options name = .ok a ↔ Dictionary.get? options name = some a := by
  unfold lookUp
  cases Dictionary.get? options name with
  | none => exact ⟨nofun, nofun⟩
  | some b => exact ⟨fun ok => congrArg some (Except.ok.inj ok), fun ok => by cases ok; rfl⟩

theorem tagFromMember_eq_ok_iff (options : List (String × α)) (key : String) (doc : Doc) (a : α) :
    tagFromMember options key doc = .ok a ↔ Dictionary.get? options key = some a ∧ doc = .null := by
  constructor
  · intro ok
    obtain ⟨b, found, ok⟩ := exists_of_bind ok
    rw [lookUp_eq_ok_iff] at found
    split at ok
    case h_1 =>
      cases ok
      exact ⟨found, rfl⟩
    case h_2 =>
      exact absurd (ok_of_mapError ok) (mismatch_ne_ok _ _ _)
  · rintro ⟨found, rfl⟩
    rw [tagFromMember, (lookUp_eq_ok_iff _ _ _).mpr found]
    rfl

/-- A tag is one of its names, alone or as the only key of an object with `null` under it. -/
theorem tag_stream_eq_ok_iff (options : List (String × α)) (depth : Nat) (doc : Doc) (a : α) :
    tag options (.stream (depth + 2)) doc = .ok a ↔
      ∃ name, Dictionary.get? options name = some a ∧
        (doc = .string (.ok name) ∨ doc = .object (keyed [(name, .null)]) none) := by
  constructor
  · intro ok
    cases doc with
    | string value =>
      cases value with
      | error fault => cases ok
      | ok name => exact ⟨name, (lookUp_eq_ok_iff _ _ _).mp ok, .inl rfl⟩
    | object members ending =>
      match members with
      | [] => cases ok
      | (.error fault, _) :: _ => cases ok
      | (.ok key, doc) :: rest =>
        obtain ⟨_, _, read⟩ := exists_of_bind ok
        obtain ⟨b, found, atEnd⟩ := exists_of_bind read
        obtain ⟨known, rfl⟩ := (tagFromMember_eq_ok_iff _ _ _ _).mp found
        split at atEnd
        case h_1 =>
          cases atEnd
          exact ⟨key, known, .inr rfl⟩
        all_goals cases atEnd
    | broken fault => cases fault <;> cases ok
    | null | boolean | numeral | list => cases ok
  · rintro ⟨name, found, rfl | rfl⟩
    · exact (lookUp_eq_ok_iff _ _ _).mpr found
    · have member := (tagFromMember_eq_ok_iff options name .null a).mpr ⟨found, rfl⟩
      have read : tag options (.stream (depth + 2)) (.object (keyed [(name, .null)]) none) =
          tagFromMember options name .null >>= fun value => pure value := rfl
      rw [read, member]
      rfl

end DesignLink.Wire.Tagged
