import DesignLink.Proofs.Text.Span
import DesignLink.Script.Token
import DesignLink.Text.Quoted

/-!
Quoted texts are string literals: the scanner ends at the closing quote and finds the text that
was quoted.
-/

namespace DesignLink.Script

def IsQuote (quote : Char) : Prop := quote = '"' ∨ quote = '\''

namespace StringLiteral

theorem units_escapeChar {quote : Char} (isQuote : IsQuote quote) (c : Char) (fuel offset : Nat)
    (rest : List Char) :
    units quote (fuel + 1) ⟨offset, Text.escapeChar quote c ++ rest⟩ =
      (units quote fuel ⟨offset + Text.byteSize (Text.escapeChar quote c), rest⟩).map
        fun (later, place) => (.char c :: later, place) := by
  unfold Text.escapeChar
  split
  case isTrue backslash => subst backslash; rfl
  split
  case isTrue newline => subst newline; rfl
  split
  case isTrue return_ => subst return_; rfl
  split
  case isTrue same => subst same; rcases isQuote with rfl | rfl <;> rfl
  case isFalse backslash newline return_ other =>
    simp only [List.cons_append, List.nil_append, Text.byteSize_cons, Text.byteSize_nil,
      Nat.add_zero]
    rw [units]
    · simp only [other, newline, return_, or_self, if_false]
    · rintro rfl
      exact absurd rfl backslash

theorem units_escapeChars {quote : Char} (isQuote : IsQuote quote) (text : List Char) :
    ∀ (fuel offset : Nat) (rest : List Char), text.length < fuel →
      units quote fuel ⟨offset, Text.escapeChars quote text ++ quote :: rest⟩ =
        some (text.map .char,
          ⟨offset + Text.byteSize (Text.escapeChars quote text) + 1, rest⟩) := by
  induction text with
  | nil =>
    intro fuel offset rest enough
    obtain ⟨fuel, rfl⟩ : ∃ less, fuel = less + 1 := ⟨fuel - 1, by omega⟩
    rcases isQuote with rfl | rfl <;> rfl
  | cons c text ih =>
    intro fuel offset rest enough
    obtain ⟨fuel, rfl⟩ : ∃ less, fuel = less + 1 := ⟨fuel - 1, by omega⟩
    rw [List.length_cons] at enough
    rw [Text.escapeChars, List.append_assoc, units_escapeChar isQuote,
      ih fuel _ rest (by omega), Text.byteSize_append, Nat.add_assoc offset]
    rfl

theorem text_map_char (text : List Char) : StringUnit.text (text.map .char) = text := by
  have noHalf : (text.map StringUnit.char).any StringUnit.isHalf = false := by
    rw [List.any_map]
    exact List.any_eq_false.mpr fun c _ => by simp [StringUnit.isHalf]
  rw [StringUnit.text, noHalf]
  induction text with
  | nil => rfl
  | cons c text ih =>
    rw [List.map_cons, List.any_cons, Bool.or_eq_false_iff] at noHalf
    simpa [StringUnit.plain] using ih noHalf.2

theorem length_escapeChars (quote : Char) (text : List Char) :
    text.length ≤ (Text.escapeChars quote text).length := by
  induction text with
  | nil => exact Nat.zero_le _
  | cons c text ih =>
    have positive : 1 ≤ (Text.escapeChar quote c).length := by
      unfold Text.escapeChar
      repeat' split
      all_goals simp
    rw [Text.escapeChars, List.length_append, List.length_cons]
    omega

/-- A quoted text reads back as itself, and reading ends behind its closing quote. -/
theorem read_escaped {quote : Char} (isQuote : IsQuote quote) (text : String) (offset : Nat)
    (rest : List Char) :
    read quote ⟨offset, Text.escapeChars quote text.toList ++ quote :: rest⟩ =
      some (text,
        ⟨offset + Text.byteSize (Text.escapeChars quote text.toList) + 1, rest⟩) := by
  have enough : text.toList.length <
      (Text.escapeChars quote text.toList ++ quote :: rest).length + 1 := by
    have := length_escapeChars quote text.toList
    rw [List.length_append]
    omega
  rw [read, units_escapeChars isQuote _ _ _ _ enough, Option.map_some]
  simp only [text_map_char, String.ofList_toList]

end StringLiteral

end DesignLink.Script
