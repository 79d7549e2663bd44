import DesignLink.Proofs.Script.QuotedString
import DesignLink.Proofs.Text.Words

/-!
What the scanner finds in front of a text: names, quoted strings and marks, whatever follows them.
-/

namespace DesignLink.Script

def StartsToken (text : List Char) : Prop :=
  ∀ newline offset, Gap.skip .blank newline offset text = some (newline, ⟨offset, text⟩)

def EndsName (text : List Char) : Prop :=
  ∀ c ∈ text.head?, Text.isIdentifierPart c = false ∧ c ≠ '\\'

namespace Lexeme

theorem next_of_startsToken {offset stop : Nat} {text rest : List Char} {token : Token}
    (starts : StartsToken text) (scan : Token.scan ⟨offset, text⟩ = (token, ⟨stop, rest⟩)) :
    next ⟨offset, text⟩ = ⟨token, false, offset, text, stop, rest⟩ := by
  rw [next]
  simp only [starts false offset, scan]

end Lexeme

/-! Quoted strings. -/

def quotedChars (quote : Char) (text : String) : List Char :=
  quote :: (Text.escapeChars quote text.toList ++ [quote])

theorem toList_quoted (text : String) : (Text.quoted text).toList = quotedChars '"' text := by
  simp [Text.quoted, Text.escape, quotedChars]

theorem toList_quotedSingle (text : String) :
    (Text.quotedSingle text).toList = quotedChars '\'' text := by
  simp [Text.quotedSingle, Text.escape, quotedChars]

theorem Lexeme.next_quoted {quote : Char} (isQuote : IsQuote quote) (text : String)
    (offset : Nat) (rest : List Char) :
    Lexeme.next ⟨offset, quotedChars quote text ++ rest⟩ =
      ⟨.string text, false, offset, quotedChars quote text ++ rest,
        offset + Text.byteSize (quotedChars quote text), rest⟩ := by
  have shape : quotedChars quote text ++ rest =
      quote :: (Text.escapeChars quote text.toList ++ quote :: rest) := by
    simp [quotedChars]
  have read := StringLiteral.read_escaped isQuote text (offset + 1) rest
  have size : offset + Text.byteSize (quotedChars quote text) =
      offset + 1 + Text.byteSize (Text.escapeChars quote text.toList) + 1 := by
    have one : quote.utf8Size = 1 := by rcases isQuote with rfl | rfl <;> rfl
    simp only [quotedChars, Text.byteSize_cons, Text.byteSize_append, Text.byteSize_nil, one]
    omega
  apply Lexeme.next_of_startsToken
  · rw [shape]
    rcases isQuote with rfl | rfl <;> exact fun _ _ => rfl
  · rw [shape, size]
    rcases isQuote with rfl | rfl <;> simp only [Token.scan, read]

/-- A text that is escaped for quotes and put between them is one string token wherever it stands:
the token ends at the closing quote, with all that follows left, and its value is the text. So no
two texts are escaped alike. -/
theorem Lexeme.next_escaped {quote : Char} (isQuote : IsQuote quote) :
    (∀ (text following : String) (offset : Nat),
      let written := String.singleton quote ++ Text.escape quote text ++ String.singleton quote
      Lexeme.next ⟨offset, (written ++ following).toList⟩ =
        ⟨.string text, false, offset, (written ++ following).toList,
          offset + written.utf8ByteSize, following.toList⟩) ∧
    Function.Injective (Text.escape quote) := by
  have toList_written (text : String) : (String.singleton quote ++ Text.escape quote text ++
      String.singleton quote).toList = quotedChars quote text := by
    simp [Text.escape, quotedChars]
  constructor
  · intro text following offset written
    have shape : (written ++ following).toList = quotedChars quote text ++ following.toList := by
      rw [String.toList_append, toList_written]
    have size : written.utf8ByteSize = Text.byteSize (quotedChars quote text) := by
      rw [← Text.byteSize_toList, toList_written]
    rw [shape, size]
    exact Lexeme.next_quoted isQuote text offset following.toList
  · intro text other same
    have shape : quotedChars quote text = quotedChars quote other := by
      rw [← toList_written, ← toList_written, same]
    -- One text between quotes is read as one token, so both values are its value.
    have read := Lexeme.next_quoted isQuote text 0 []
    rw [shape, Lexeme.next_quoted isQuote other 0 []] at read
    exact (Token.string.inj (congrArg Lexeme.token read)).symm

/-- A backslash in front of the other quote, a quote like the closing one and a line break all belong
to the text, and a string behind it does not. -/
theorem Lexeme.next_escaped_quotes :
    IsQuote '"' ∧ Text.escape '"' "a\\'é\"\n" = "a\\\\'é\\\"\\n" ∧
    Lexeme.next ⟨3, "\"a\\\\'é\\\"\\n\"\"b".toList⟩ =
      ⟨.string "a\\'é\"\n", false, 3, "\"a\\\\'é\\\"\\n\"\"b".toList, 15, ['"', 'b']⟩ := by
  have isQuote : IsQuote '"' := .inl rfl
  have escaped : Text.escape '"' "a\\'é\"\n" = "a\\\\'é\\\"\\n" := by decide
  have read := (Lexeme.next_escaped isQuote).1 "a\\'é\"\n" "\"b" 3
  rw [escaped] at read
  exact ⟨isQuote, escaped, read⟩

/-! Names. -/

def startsName (c : Char) : Bool := c.isAlpha || c = '_' || c = '$'

/-- A character that a name of ASCII characters may go on with. -/
def continuesName (c : Char) : Bool := c.isAlphanum || c = '_' || c = '$'

theorem isIdentifier_iff (name : String) :
    Text.isIdentifier name = true ↔
      ∃ c rest, name.toList = c :: rest ∧ startsName c = true ∧ rest.all continuesName = true := by
  unfold Text.isIdentifier
  split
  case h_1 empty => simp [empty]
  case h_2 c rest shape =>
    rw [Bool.and_eq_true]
    constructor
    · rintro ⟨first, others⟩
      exact ⟨c, rest, shape, first, others⟩
    · rintro ⟨c', rest', shape', first, others⟩
      rw [shape] at shape'
      obtain ⟨rfl, rfl⟩ := List.cons.inj shape'
      exact ⟨first, others⟩

theorem toNat_of_startsName {c : Char} (starts : startsName c = true) :
    c.toNat = 36 ∨ c.toNat = 95 ∨ (65 ≤ c.toNat ∧ c.toNat ≤ 90) ∨
      (97 ≤ c.toNat ∧ c.toNat ≤ 122) := by
  simp only [startsName, Bool.or_eq_true, decide_eq_true_eq, Text.isAlpha_iff] at starts
  rcases starts with (letter | rfl) | rfl
  · omega
  · decide
  · decide

theorem ne_of_startsName {c d : Char} (starts : startsName c = true)
    (other : startsName d = false) : c ≠ d := by
  rintro rfl
  rw [starts] at other
  cases other

theorem continuesName_of_startsName {c : Char} (starts : startsName c = true) :
    continuesName c = true := by
  simp only [startsName, Bool.or_eq_true] at starts
  simp only [continuesName, Char.isAlphanum, Bool.or_eq_true]
  rcases starts with (letter | under) | dollar
  · exact .inl (.inl (.inl letter))
  · exact .inl (.inr under)
  · exact .inr dollar

theorem isIdentifierStart_of_startsName {c : Char} (starts : startsName c = true) :
    Text.isIdentifierStart c = true := by
  rw [Text.isIdentifierStart, Bool.or_eq_true]
  exact .inl starts

theorem isIdentifierPart_of_continuesName {c : Char} (continues : continuesName c = true) :
    Text.isIdentifierPart c = true := by
  rw [Text.isIdentifierPart, Bool.or_eq_true]
  exact .inl continues

theorem isDigit_of_startsName {c : Char} (starts : startsName c = true) :
    Number.isDigit c = false := by
  have range := toNat_of_startsName starts
  rw [Number.isDigit, Bool.and_eq_false_iff]
  simp only [decide_eq_false_iff_not, Char.le_def, UInt32.le_iff_toNat_le]
  change ¬ 48 ≤ c.toNat ∨ ¬ c.toNat ≤ 57
  omega

theorem startsToken_of_visible {c : Char} (low : 33 ≤ c.toNat) (high : c.toNat ≤ 126)
    (slash : c ≠ '/') (rest : List Char) : StartsToken (c :: rest) := by
  intro newline offset
  have other {d : Char} (outside : d.toNat < 33) : c ≠ d := by
    rintro rfl
    omega
  have noLine : Text.isLineTerminator c = false := by
    have ends : c ≠ '\n' ∧ c ≠ '\r' := ⟨other (by decide), other (by decide)⟩
    simp only [Text.isLineTerminator, ends, decide_false, Bool.false_or, Bool.or_eq_false_iff,
      decide_eq_false_iff_not]
    omega
  have noBlank : Text.isBlank c = false := by
    have blanks : c ≠ ' ' ∧ c ≠ '\t' := ⟨other (by decide), other (by decide)⟩
    simp only [Text.isBlank, blanks, decide_false, Bool.false_or, Bool.or_eq_false_iff,
      Bool.and_eq_false_iff, decide_eq_false_iff_not]
    omega
  rw [Gap.skip]
  · simp only [noLine, noBlank, Bool.false_eq_true, if_false]
  · rintro _ same _
    exact slash same
  · rintro _ same _
    exact slash same

theorem startsToken_of_startsName {c : Char} (starts : startsName c = true) (rest : List Char) :
    StartsToken (c :: rest) := by
  have range := toNat_of_startsName starts
  exact startsToken_of_visible (by omega) (by omega) (ne_of_startsName starts rfl) rest

theorem head_of_mem_marks :
    ∀ mark ∈ Token.marks, ∃ c rest, mark.toList = c :: rest ∧ startsName c = false := by
  have heads : Token.marks.all (fun mark =>
      (mark.toList.head?.map startsName).getD true == false) = true := by decide
  intro mark member
  have head := List.all_eq_true.mp heads mark member
  cases shape : mark.toList with
  | nil => simp [shape] at head
  | cons c rest => exact ⟨c, rest, rfl, by simpa [shape] using head⟩

theorem scanMark_of_startsName {c : Char} (starts : startsName c = true) (rest : List Char) :
    Token.scanMark (c :: rest) = none := by
  have question : c ≠ '?' := ne_of_startsName starts rfl
  rw [Token.scanMark]
  · rw [Token.markOf, List.find?_eq_none]
    intro mark member isPrefix
    obtain ⟨d, more, shape, other⟩ := head_of_mem_marks mark member
    rw [shape, List.isPrefixOf, Bool.and_eq_true, beq_iff_eq] at isPrefix
    exact ne_of_startsName starts other isPrefix.1.symm
  · rintro _ _ same
    exact question (List.cons.inj same).1

theorem scanWord_cons {c : Char} (noEscape : c ≠ '\\') (fuel : Nat) (first : Bool)
    (offset : Nat) (rest : List Char) :
    Token.scanWord (fuel + 1) first ⟨offset, c :: rest⟩ =
      if (if first then Text.isIdentifierStart c else Text.isIdentifierPart c) = true then
        (Token.scanWord fuel false ⟨offset + c.utf8Size, rest⟩).map
          fun (later, escaped, place) => (c :: later, escaped, place)
      else if first then none
      else some ([], false, ⟨offset, c :: rest⟩) := by
  rw [Token.scanWord.eq_def]
  simp only
  split
  case h_1 same => exact absurd (List.cons.inj same).1 noEscape
  case h_2 same => exact absurd (List.cons.inj same).1 noEscape
  case h_3 same =>
    obtain ⟨rfl, rfl⟩ := List.cons.inj same
    rfl
  case h_4 same => cases same

theorem scanWord_continues {text rest : List Char} (continues : text.all continuesName = true)
    (ends : EndsName rest) : ∀ (fuel offset : Nat), text.length < fuel →
      Token.scanWord fuel false ⟨offset, text ++ rest⟩ =
        some (text, false, ⟨offset + Text.byteSize text, rest⟩) := by
  induction text with
  | nil =>
    intro fuel offset enough
    obtain ⟨fuel, rfl⟩ : ∃ less, fuel = less + 1 := ⟨fuel - 1, by omega⟩
    cases rest with
    | nil => rfl
    | cons c rest =>
      obtain ⟨stop, noEscape⟩ := ends c rfl
      rw [List.nil_append, scanWord_cons noEscape]
      simp [stop]
  | cons c text ih =>
    intro fuel offset enough
    obtain ⟨fuel, rfl⟩ : ∃ less, fuel = less + 1 := ⟨fuel - 1, by omega⟩
    rw [List.length_cons] at enough
    rw [List.all_cons, Bool.and_eq_true] at continues
    have part := isIdentifierPart_of_continuesName continues.1
    have noEscape : c ≠ '\\' := by
      rintro rfl
      exact absurd continues.1 (by decide)
    rw [List.cons_append, scanWord_cons noEscape, ih continues.2 fuel _ (by omega)]
    simp [part, Nat.add_assoc]

theorem Lexeme.next_name {name : String} (isName : Text.isIdentifier name = true)
    {rest : List Char} (ends : EndsName rest) (offset : Nat) :
    Lexeme.next ⟨offset, name.toList ++ rest⟩ =
      ⟨.word name false, false, offset, name.toList ++ rest,
        offset + Text.byteSize name.toList, rest⟩ := by
  obtain ⟨c, more, shape, starts, continues⟩ := (isIdentifier_iff name).mp isName
  have part := isIdentifierStart_of_startsName starts
  have noEscape : c ≠ '\\' := ne_of_startsName starts rfl
  have word : Token.scanWord ((more ++ rest).length + 2) true ⟨offset, c :: (more ++ rest)⟩ =
      some (c :: more, false, ⟨offset + Text.byteSize (c :: more), rest⟩) := by
    rw [scanWord_cons noEscape, scanWord_continues continues ends]
    · simp [part, Nat.add_assoc]
    · rw [List.length_append]
      omega
  have other : ∀ d, startsName d = false → c ≠ d := fun d => ne_of_startsName starts
  have noNumber : (Number.isDigit c || (decide (c = '.') &&
      ((more ++ rest).head?.map Number.isDigit).getD false)) = false := by
    rw [isDigit_of_startsName starts, decide_eq_false (other '.' rfl)]
    rfl
  have noMark := scanMark_of_startsName starts (more ++ rest)
  apply Lexeme.next_of_startsToken
  · rw [shape]
    exact startsToken_of_startsName starts _
  · rw [shape, List.cons_append, Token.scan.eq_def]
    simp only
    split
    case h_1 same => cases same
    case h_2 same => exact absurd (List.cons.inj same).1 (other _ rfl)
    case h_3 same => exact absurd (List.cons.inj same).1 (other _ rfl)
    case h_4 same => exact absurd (List.cons.inj same).1 (other _ rfl)
    case h_5 same => exact absurd (List.cons.inj same).1 (other _ rfl)
    case h_6 same =>
      obtain ⟨rfl, rfl⟩ := List.cons.inj same
      simp only [noNumber, Bool.false_eq_true, if_false, noMark, word]
      rw [← shape, String.ofList_toList]

/-! Marks. -/

theorem Lexeme.next_mark {c : Char} {rest : List Char} {mark : String}
    (starts : StartsToken (c :: rest)) (plain : c ∉ ['"', '\'', '\x60', '#'])
    (noNumber : (Number.isDigit c || (decide (c = '.') &&
      (rest.head?.map Number.isDigit).getD false)) = false)
    (found : Token.scanMark (c :: rest) = some mark) (offset : Nat) :
    Lexeme.next ⟨offset, c :: rest⟩ = ⟨.mark mark, false, offset, c :: rest,
      offset + mark.utf8ByteSize, (c :: rest).drop mark.length⟩ := by
  have other (d : Char) (special : d ∈ ['"', '\'', '\x60', '#']) : c ≠ d := by
    rintro rfl
    exact plain special
  apply Lexeme.next_of_startsToken starts
  rw [Token.scan.eq_def]
  simp only
  split
  case h_1 same => cases same
  case h_2 same => exact absurd (List.cons.inj same).1 (other _ (by decide))
  case h_3 same => exact absurd (List.cons.inj same).1 (other _ (by decide))
  case h_4 same => exact absurd (List.cons.inj same).1 (other _ (by decide))
  case h_5 same => exact absurd (List.cons.inj same).1 (other _ (by decide))
  case h_6 same =>
    obtain ⟨rfl, rfl⟩ := List.cons.inj same
    simp only [noNumber, Bool.false_eq_true, if_false, found]

end DesignLink.Script
