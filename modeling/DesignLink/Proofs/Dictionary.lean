import DesignLink.Dictionary

/-!
Dictionaries: what is found in them, and that their keys stay pairwise different as they are put
together.
-/

namespace DesignLink

/-! First occurrences. -/

theorem nodup_eraseDups : ∀ items : List String, items.eraseDups.Nodup
  | [] => List.nodup_nil
  | first :: rest => by
    rw [List.eraseDups_cons]
    refine List.nodup_cons.mpr ⟨?_, nodup_eraseDups (rest.filter fun item => !item == first)⟩
    simp [List.mem_eraseDups]
  termination_by items => items.length
  decreasing_by exact Nat.lt_succ_of_le (List.length_filter_le _ _)

theorem eraseDups_concat (front : List String) (last : String) :
    (front ++ [last]).eraseDups =
      if last ∈ front.eraseDups then front.eraseDups else front.eraseDups ++ [last] := by
  rw [List.eraseDups_append]
  split
  case isTrue member =>
    have none_ : [last].removeAll front = [] := by
      simpa [List.removeAll] using List.mem_eraseDups.mp member
    rw [none_, List.eraseDups_nil, List.append_nil]
  case isFalse absent =>
    have one : [last].removeAll front = [last] := by
      simpa [List.removeAll, List.mem_eraseDups] using absent
    rw [one]
    rfl

theorem eraseDups_eq_nil_iff {items : List String} : items.eraseDups = [] ↔ items = [] := by
  cases items with
  | nil => exact iff_of_true rfl rfl
  | cons first rest => simp [List.eraseDups_cons]

/-! Keys. -/

theorem contains_iff_mem_keys {α : Type} {entries : List (String × α)} {key : String} :
    Dictionary.contains entries key = true ↔ key ∈ Dictionary.keys entries := by
  simp [Dictionary.contains, Dictionary.keys]

theorem keys_put {α : Type} (key : String) (value : α) : ∀ entries : List (String × α),
    Dictionary.keys (Dictionary.put entries key value) =
      if key ∈ Dictionary.keys entries then Dictionary.keys entries
      else Dictionary.keys entries ++ [key]
  | [] => rfl
  | (k, v) :: rest => by
    have later := keys_put key value rest
    rw [Dictionary.keys, Dictionary.keys] at later
    by_cases same : k = key
    case pos =>
      subst same
      simp [Dictionary.put, Dictionary.keys]
    case neg =>
      have other : key ≠ k := Ne.symm same
      simp only [Dictionary.put, same, if_false, Dictionary.keys, List.map_cons, later,
        List.mem_cons, other, false_or]
      split <;> rfl

theorem nodup_keys_put {α : Type} {entries : List (String × α)} (key : String) (value : α)
    (distinct : (Dictionary.keys entries).Nodup) :
    (Dictionary.keys (Dictionary.put entries key value)).Nodup := by
  rw [keys_put]
  split
  case isTrue => exact distinct
  case isFalse absent =>
    apply List.nodup_append.mpr
    refine ⟨distinct, by simp, ?_⟩
    intro other member last same
    obtain rfl := List.mem_singleton.mp same
    rintro rfl
    exact absent member

theorem mem_put {α : Type} {key : String} {value : α} {entry : String × α} :
    ∀ {entries : List (String × α)}, entry ∈ Dictionary.put entries key value →
      entry ∈ entries ∨ entry = (key, value)
  | [], member => .inr (List.mem_singleton.mp member)
  | (k, v) :: rest, member => by
    rw [Dictionary.put] at member
    split at member
    case isTrue same =>
      rcases List.mem_cons.mp member with rfl | later
      · exact .inr (by rw [same])
      · exact .inl (List.mem_cons_of_mem _ later)
    case isFalse =>
      rcases List.mem_cons.mp member with rfl | later
      · exact .inl List.mem_cons_self
      · rcases mem_put later with among | same
        · exact .inl (List.mem_cons_of_mem _ among)
        · exact .inr same

theorem mem_of_get? {α : Type} {entries : List (String × α)} {key : String} {value : α}
    (found : Dictionary.get? entries key = some value) : (key, value) ∈ entries := by
  obtain ⟨entry, first, rfl⟩ := Option.map_eq_some_iff.mp found
  have same := List.find?_some first
  rw [decide_eq_true_eq] at same
  rw [← same]
  exact List.mem_of_find?_eq_some first

end DesignLink
