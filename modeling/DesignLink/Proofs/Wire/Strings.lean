import DesignLink.Wire.Doc

/-!
Strings of documents: what is written for a string is scanned as the string.
-/

namespace DesignLink.Wire.Doc

theorem hexValue?_control : ∀ n < 32,
    hexValue? ['0', '0', Json.hexDigit (n / 16), Json.hexDigit (n % 16)] = some n := by
  decide

theorem scanString_control (atEnd : Fault) (fuel : Nat) {c : Char} (low : c.toNat < 32)
    (rest : List Char) :
    scanString atEnd (fuel + 1) ('\\' :: 'u' :: '0' :: '0' :: Json.hexDigit (c.toNat / 16) ::
      Json.hexDigit (c.toNat % 16) :: rest) = (scanString atEnd fuel rest).push c := by
  have escape : hexEscape ('0' :: '0' :: Json.hexDigit (c.toNat / 16) ::
      Json.hexDigit (c.toNat % 16) :: rest) = .ok (c.toNat, rest) := by
    simp [hexEscape, hexValue?_control c.toNat low]
  rw [scanString, escape]
  dsimp only
  rw [if_neg (by omega), if_neg (by omega), Char.ofNat_toNat]

theorem scanString_escapeChar (atEnd : Fault) (fuel : Nat) (c : Char) (rest : List Char) :
    scanString atEnd (fuel + 1) (Json.escapeChar c ++ rest) =
      (scanString atEnd fuel rest).push c := by
  have same (n : Nat) (equal : c.toNat = n) : c = Char.ofNat n := by
    rw [← equal, Char.ofNat_toNat]
  unfold Json.escapeChar
  split
  case isTrue quote => subst quote; rfl
  split
  case isTrue backslash => subst backslash; rfl
  split
  case isTrue newline => subst newline; rfl
  split
  case isTrue return_ => subst return_; rfl
  split
  case isTrue tab => subst tab; rfl
  split
  case isTrue backspace => rw [same 8 backspace]; rfl
  split
  case isTrue feed => rw [same 12 feed]; rfl
  split
  case isTrue low => exact scanString_control atEnd fuel low rest
  case isFalse quote backslash _ _ _ _ _ high =>
    rw [List.singleton_append, scanString]
    · rw [if_neg high]
    · rintro rfl
      exact absurd rfl quote
    · rintro rfl
      exact absurd rfl backslash
    · rintro rest' rfl
      exact absurd rfl backslash
    · rintro c' rest' rfl
      exact absurd rfl backslash

theorem scanString_escaped (atEnd : Fault) (text rest : List Char) :
    ∀ fuel, text.length < fuel →
      scanString atEnd fuel (text.flatMap Json.escapeChar ++ '"' :: rest) =
        ⟨.ok text, .ok rest⟩ := by
  induction text with
  | nil =>
    intro fuel enough
    obtain ⟨fuel, rfl⟩ : ∃ less, fuel = less + 1 := ⟨fuel - 1, by omega⟩
    rfl
  | cons c text ih =>
    intro fuel enough
    obtain ⟨fuel, rfl⟩ : ∃ less, fuel = less + 1 := ⟨fuel - 1, by omega⟩
    rw [List.length_cons] at enough
    rw [List.flatMap_cons, List.append_assoc, scanString_escapeChar, ih fuel (by omega)]
    rfl

theorem length_le_flatMap_escapeChar (text : List Char) :
    text.length ≤ (text.flatMap Json.escapeChar).length := by
  induction text with
  | nil => exact Nat.zero_le _
  | cons c text ih =>
    have positive : 1 ≤ (Json.escapeChar c).length := by
      unfold Json.escapeChar
      repeat' split
      all_goals simp
    rw [List.flatMap_cons, List.length_append, List.length_cons]
    omega

/-- The characters of a quoted string behind the opening quote. -/
def escapedTail (text : String) : List Char := text.toList.flatMap Json.escapeChar ++ ['"']

theorem toList_quote (text : String) : (Json.quote text).toList = '"' :: escapedTail text := by
  simp [Json.quote, escapedTail]

theorem string?_escapedTail (atEnd : Fault) (text : String) (rest : List Char) :
    string? atEnd (escapedTail text ++ rest) = (.ok text, .ok rest) := by
  have shape : escapedTail text ++ rest = text.toList.flatMap Json.escapeChar ++ '"' :: rest := by
    simp [escapedTail]
  have enough : text.toList.length < (escapedTail text ++ rest).length + 1 := by
    have := length_le_flatMap_escapeChar text.toList
    rw [shape, List.length_append]
    omega
  rw [shape] at enough ⊢
  rw [string?, scanString_escaped atEnd text.toList rest _ enough]
  simp [Except.map]

end DesignLink.Wire.Doc
