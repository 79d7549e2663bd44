import DesignLink.Proofs.Number.Format
import DesignLink.Proofs.Script.Values

/-!
Numbers in code: a numeral is scanned as one token, and the written form of a finite number is a
value that denotes it, behind a minus sign if it is negative.
-/

namespace DesignLink.Script

open DesignLink.Number

def EndsNumeral (text : List Char) : Prop :=
  ∀ c ∈ text.head?, Text.isIdentifierPart c = false ∧ c ≠ '.'

theorem Closes.endsNumeral {rest : List Char} (closes : Closes rest) : EndsNumeral rest := by
  cases closes with
  | constant rest => rintro c ⟨⟩; decide
  | declaration rest => rintro c ⟨⟩; decide
  | connection rest => rintro c ⟨⟩; decide
  | _ => rintro c ⟨⟩; decide

namespace NumberLiteral

theorem isIdentifierPart_of_isDigit {c : Char} (digit : isDigit c = true) :
    Text.isIdentifierPart c = true := by
  have alphanumeric : c.isAlphanum = true := by
    rw [Char.isAlphanum, isDigit_iff.mp digit, Bool.or_true]
  simp [Text.isIdentifierPart, alphanumeric]

theorem isIdentifierPart_of_isIdentifierStart {c : Char}
    (starts : Text.isIdentifierStart c = true) : Text.isIdentifierPart c = true := by
  simp only [Text.isIdentifierStart, Bool.or_eq_true, Bool.and_eq_true] at starts
  simp only [Text.isIdentifierPart, Char.isAlphanum, Bool.or_eq_true, Bool.and_eq_true]
  rcases starts with ((letter | under) | dollar) | (⟨high, inside⟩)
  · exact .inl (.inl (.inl (.inl letter)))
  · exact .inl (.inl (.inr under))
  · exact .inl (.inr dollar)
  · exact .inr ⟨high, .inl inside⟩

/-- A text that goes on with nothing a word could go on with. -/
def EndsDigits (text : List Char) : Prop := ∀ c ∈ text.head?, Text.isIdentifierPart c = false

theorem endsDigits_of_endsNumeral {rest : List Char} (ends : EndsNumeral rest) :
    EndsDigits rest := fun c head => (ends c head).1

theorem noDigit_of_endsDigits {c : Char} {rest : List Char} (ends : EndsDigits (c :: rest)) :
    isDigit c = false ∧ c ≠ '_' := by
  have noPart := ends c rfl
  constructor
  · by_cases digit : isDigit c = true
    · rw [isIdentifierPart_of_isDigit digit] at noPart
      cases noPart
    · exact Bool.eq_false_iff.mpr digit
  · rintro rfl
    exact absurd noPart (by decide)

theorem digits_append {text rest : List Char} (all : AllDigits text) (ends : EndsDigits rest) :
    digits isDigit (text ++ rest) = some (text, rest) := by
  induction text with
  | nil =>
    cases rest with
    | nil => rfl
    | cons c rest =>
      obtain ⟨noDigit, noSeparator⟩ := noDigit_of_endsDigits ends
      rw [List.nil_append, digits]
      · simp [noDigit]
      · rintro rfl
        exact absurd rfl noSeparator
      · rintro _ _ rfl
        exact absurd rfl noSeparator
  | cons c text ih =>
    have digit := all c (by simp)
    have later := ih fun other member => all other (by simp [member])
    rw [List.cons_append, digits]
    · simp [digit, later]
    · rintro rfl
      exact absurd digit (by decide)
    · rintro _ _ rfl
      exact absurd digit (by decide)

theorem someDigits_append {text rest : List Char} (all : AllDigits text) (nonempty : text ≠ [])
    (ends : EndsDigits rest) : someDigits isDigit (text ++ rest) = some (text, rest) := by
  obtain ⟨c, text, rfl⟩ := List.exists_cons_of_ne_nil nonempty
  have digit := all c (by simp)
  rw [List.cons_append, someDigits, if_pos digit,
    digits_append (fun other member => all other (by simp [member])) ends]
  rfl

theorem anyDigits_append {text rest : List Char} (all : AllDigits text) (nonempty : text ≠ [])
    (ends : EndsDigits rest) : anyDigits isDigit (text ++ rest) = some (text, rest) := by
  obtain ⟨c, text, rfl⟩ := List.exists_cons_of_ne_nil nonempty
  have digit := all c (by simp)
  rw [List.cons_append, anyDigits, if_pos digit, ← List.cons_append,
    someDigits_append all nonempty ends]

theorem exponent_of_endsNumeral {rest : List Char} (ends : EndsNumeral rest) :
    exponent rest = some ([], rest) := by
  cases rest with
  | nil => rfl
  | cons c rest =>
    have noPart := (ends c rfl).1
    have noMark : ¬ (c = 'e' ∨ c = 'E') := by
      rintro (rfl | rfl) <;> exact absurd noPart (by decide)
    rw [exponent.eq_def]
    simp only [if_neg noMark]

theorem withoutSeparators_digits {text : List Char} (all : AllDigits text) :
    withoutSeparators text = text := by
  rw [withoutSeparators, List.filter_eq_self]
  intro c member
  have other : c ≠ '_' := by
    rintro rfl
    exact absurd (all _ member) (by decide)
  exact decide_eq_true other

theorem withoutSeparators_text (n : Numeral) : withoutSeparators n.text = n.text := by
  unfold Numeral.text
  split
  case isTrue => exact withoutSeparators_digits n.wholeDigits
  case isFalse =>
    have point : withoutSeparators (n.whole ++ '.' :: n.places) =
        withoutSeparators n.whole ++ '.' :: withoutSeparators n.places := by
      simp [withoutSeparators]
    rw [point, withoutSeparators_digits n.wholeDigits, withoutSeparators_digits n.placeDigits]

theorem afterWhole_text (n : Numeral) {rest : List Char} (ends : EndsNumeral rest) :
    ∃ more, n.text ++ rest = n.whole ++ more ∧ EndsDigits more ∧
      afterWhole n.whole more = some (decimal n.text, n.text, rest) := by
  unfold Numeral.text
  split
  case isTrue =>
    refine ⟨rest, rfl, endsDigits_of_endsNumeral ends, ?_⟩
    have tail : afterWhole n.whole rest = (exponent rest).bind fun found =>
        some (decimal (n.whole ++ found.1), n.whole ++ found.1, found.2) := by
      rw [afterWhole.eq_def]
      split
      · exact absurd rfl (ends '.' rfl).2
      · exact absurd (ends 'n' rfl).1 (by decide)
      · rfl
    rw [tail, exponent_of_endsNumeral ends, Option.bind_some, List.append_nil]
  case isFalse places =>
    have nonempty : n.places ≠ [] := by
      intro none_
      exact places (by rw [none_]; rfl)
    refine ⟨'.' :: (n.places ++ rest), by simp, by rintro c ⟨⟩; decide, ?_⟩
    have taken := anyDigits_append n.placeDigits nonempty (endsDigits_of_endsNumeral ends)
    have tail : afterWhole n.whole ('.' :: (n.places ++ rest)) =
        (anyDigits isDigit (n.places ++ rest)).bind fun found =>
          (exponent found.2).bind fun power =>
            some (decimal (n.whole ++ '.' :: found.1 ++ power.1),
              n.whole ++ '.' :: found.1 ++ power.1, power.2) := rfl
    rw [tail, taken, Option.bind_some, exponent_of_endsNumeral ends, Option.bind_some,
      List.append_nil]

theorem scan_text (n : Numeral) {rest : List Char} (ends : EndsNumeral rest) :
    scan (n.text ++ rest) = some (decimal n.text, n.text, rest) := by
  obtain ⟨more, text, endsDigits, tail⟩ := afterWhole_text n ends
  have taken := someDigits_append n.wholeDigits n.nonempty endsDigits
  have general : (someDigits isDigit (n.whole ++ more)).bind
      (fun found => afterWhole found.1 found.2) = some (decimal n.text, n.text, rest) := by
    rw [taken, Option.bind_some, tail]
  rw [text, scan.eq_def]
  split
  case h_1 rest' same =>
    obtain ⟨c, whole, shape⟩ := List.exists_cons_of_ne_nil n.nonempty
    rw [shape, List.cons_append] at same
    obtain ⟨rfl, _⟩ := List.cons.inj same
    exact absurd (n.wholeDigits '.' (by simp [shape])) (by decide)
  case h_2 c rest' same =>
    obtain ⟨first, whole, shape⟩ := List.exists_cons_of_ne_nil n.nonempty
    rw [shape, List.cons_append] at same
    obtain ⟨rfl, behind⟩ := List.cons.inj same
    have noMore := n.noZero whole shape
    rw [noMore, List.nil_append] at behind
    rw [noMore] at shape
    subst behind
    have noPart := endsDigits c rfl
    have noRadix (mark : Char) (isPart : Text.isIdentifierPart mark = true) : c ≠ mark := by
      rintro rfl
      rw [isPart] at noPart
      cases noPart
    have noDigit := (noDigit_of_endsDigits endsDigits).1
    have marks : ¬ (c = 'x' ∨ c = 'X') ∧ ¬ (c = 'o' ∨ c = 'O') ∧ ¬ (c = 'b' ∨ c = 'B') := by
      refine ⟨?_, ?_, ?_⟩ <;> rintro (rfl | rfl) <;> exact noRadix _ (by decide) rfl
    rw [if_neg marks.1, if_neg marks.2.1, if_neg marks.2.2, noDigit, if_neg Bool.false_ne_true,
      ← shape, tail]
  case h_3 => exact general

theorem read_text (n : Numeral) {value : Number}
    (denotes : readDecimal? false n.text = some value) {rest : List Char}
    (ends : EndsNumeral rest) (offset : Nat) :
    read ⟨offset, n.text ++ rest⟩ =
      some (.number value, ⟨offset + Text.byteSize n.text, rest⟩) := by
  have value_ : decimal n.text = .number value := by
    rw [decimal, withoutSeparators_text, denotes]
    rfl
  have scanned := scan_text n ends
  rw [value_] at scanned
  unfold read
  simp only [scanned, Option.bind_eq_bind, Option.bind_some]
  cases rest with
  | nil => rfl
  | cons c rest =>
    have ended := endsDigits_of_endsNumeral ends
    have noStart : ¬ (isDigit c = true ∨ Text.isIdentifierStart c = true) := by
      rintro (digit | starts)
      · rw [(noDigit_of_endsDigits ended).1] at digit
        cases digit
      · have noPart := ended c rfl
        rw [isIdentifierPart_of_isIdentifierStart starts] at noPart
        cases noPart
    simp only [if_neg noStart]
    rfl

end NumberLiteral

/-! Tokens of numerals. -/

theorem toNat_of_isDigit {c : Char} (digit : isDigit c = true) :
    48 ≤ c.toNat ∧ c.toNat ≤ 57 := by
  rw [isDigit, Bool.and_eq_true, decide_eq_true_eq, decide_eq_true_eq] at digit
  exact digit

theorem exists_text_cons (n : Numeral) :
    ∃ c rest, n.text = c :: rest ∧ isDigit c = true := by
  obtain ⟨c, whole, shape⟩ := List.exists_cons_of_ne_nil n.nonempty
  have digit := n.wholeDigits c (by simp [shape])
  unfold Numeral.text
  split
  · exact ⟨c, whole, shape, digit⟩
  · exact ⟨c, whole ++ '.' :: n.places, by rw [shape, List.cons_append], digit⟩

theorem startsToken_of_isDigit {c : Char} (digit : isDigit c = true) (rest : List Char) :
    StartsToken (c :: rest) := by
  have range := toNat_of_isDigit digit
  apply startsToken_of_visible (by omega) (by omega)
  rintro rfl
  exact absurd digit (by decide)

theorem Lexeme.next_numeral (n : Numeral) {value : Number}
    (denotes : readDecimal? false n.text = some value) {rest : List Char}
    (ends : EndsNumeral rest) (offset : Nat) :
    Lexeme.next ⟨offset, n.text ++ rest⟩ = ⟨.number value, false, offset, n.text ++ rest,
      offset + Text.byteSize n.text, rest⟩ := by
  have read := NumberLiteral.read_text n denotes ends offset
  obtain ⟨c, more, shape, digit⟩ := exists_text_cons n
  have other (d : Char) (noDigit : isDigit d = false) : c ≠ d := by
    rintro rfl
    rw [digit] at noDigit
    cases noDigit
  apply Lexeme.next_of_startsToken
  · rw [shape, List.cons_append]
    exact startsToken_of_isDigit digit _
  · rw [Token.scan.eq_def]
    simp only [read]
    rw [shape, List.cons_append]
    split
    case h_1 same => cases same
    case h_2 same => exact absurd (List.cons.inj same).1 (other _ rfl)
    case h_3 same => exact absurd (List.cons.inj same).1 (other _ rfl)
    case h_4 same => exact absurd (List.cons.inj same).1 (other _ rfl)
    case h_5 same => exact absurd (List.cons.inj same).1 (other _ rfl)
    case h_6 same =>
      obtain ⟨rfl, rfl⟩ := List.cons.inj same
      simp only [digit, Bool.true_or, if_true]

open DesignLink.Script.Parser DesignLink.Script.Grammar

theorem reads_numeral (n : Numeral) {value : Number}
    (denotes : readDecimal? false n.text = some value) :
    Reads n.text fun _ e => ∃ span, e = .number span value := by
  obtain ⟨c, more, shape, digit⟩ := exists_text_cons n
  have next (offset : Nat) {rest : List Char} (closes : Closes rest) :=
    Lexeme.next_numeral n denotes closes.endsNumeral offset
  apply reads_of_primary
  case starts =>
    intro rest
    rw [shape]
    exact startsToken_of_isDigit digit _
  case opens =>
    intro offset rest closes
    rw [next offset closes]
    exact ⟨by rintro ⟨⟩, by rintro mark _ ⟨⟩⟩
  case nonempty =>
    rw [shape]
    exact List.cons_ne_nil _ _
  case read =>
    intro depth previous offset waiting rest enough closes
    rw [shape, List.length_cons] at enough
    obtain ⟨depth, rfl⟩ : ∃ less, depth = less + 1 := ⟨depth - 1, by omega⟩
    rw [State.facing, next offset closes]
    exact ⟨_, rfl, fun _ _ => ⟨_, rfl⟩⟩

theorem Lexeme.next_minus {c : Char} (digit : isDigit c = true) (offset : Nat)
    (rest : List Char) : Lexeme.next ⟨offset, '-' :: c :: rest⟩ =
      ⟨.mark "-", false, offset, '-' :: c :: rest, offset + 1, c :: rest⟩ := by
  have other (d : Char) (noDigit : isDigit d = false) : (d == c) = false := by
    rw [beq_eq_false_iff_ne]
    rintro rfl
    rw [digit] at noDigit
    cases noDigit
  have mark : Token.scanMark ('-' :: c :: rest) = some "-" := by
    have twice : "--".toList.isPrefixOf ('-' :: c :: rest) = false := by
      change ('-' == '-' && ('-' == c && _)) = false
      rw [other '-' rfl]
      rfl
    have equals : "-=".toList.isPrefixOf ('-' :: c :: rest) = false := by
      change ('-' == '-' && ('=' == c && _)) = false
      rw [other '=' rfl]
      rfl
    change (match "--".toList.isPrefixOf ('-' :: c :: rest) with
      | true => some "--"
      | false => match "-=".toList.isPrefixOf ('-' :: c :: rest) with
        | true => some "-="
        | false => _) = _
    rw [twice, equals]
    rfl
  exact Lexeme.next_mark (fun _ _ => rfl) (by decide) rfl mark offset

theorem reads_negative (n : Numeral) {value : Number}
    (denotes : readDecimal? false n.text = some value) :
    Reads ('-' :: n.text) fun _ e => ∃ span span', e = .negation span (.number span' value) := by
  obtain ⟨c, more, shape, digit⟩ := exists_text_cons n
  have minus (offset : Nat) (rest : List Char) :
      Lexeme.next ⟨offset, '-' :: n.text ++ rest⟩ =
        ⟨.mark "-", false, offset, '-' :: n.text ++ rest, offset + 1, n.text ++ rest⟩ := by
    rw [shape]
    exact Lexeme.next_minus digit offset (more ++ rest)
  constructor
  case starts => exact fun _ _ _ => rfl
  case opens =>
    intro previous offset waiting rest _
    rw [NotAt, State.facing, minus]
    exact (by decide : ∀ mark ∈ listMarks, plainText (.mark "-") ≠ some mark)
  case read =>
    intro depth previous offset waiting rest enough closes
    rw [shape, List.length_cons] at enough
    obtain ⟨depth, rfl⟩ : ∃ less, depth = less + 6 := ⟨depth - 6, by omega⟩
    have next := Lexeme.next_numeral n denotes closes.endsNumeral (offset + 1)
    have size : offset + Text.byteSize ('-' :: n.text) = offset + 1 + Text.byteSize n.text := by
      rw [Text.byteSize_cons, show ('-' : Char).utf8Size = 1 from rfl]
      omega
    have first : primary (rules (depth + 1)) .module (depth + 1)
        (.behind ⟨offset + 1, n.text ++ rest⟩ waiting) =
        some (.number ⟨offset + 1, offset + 1 + Text.byteSize n.text⟩ value,
          .behind ⟨offset + 1 + Text.byteSize n.text, rest⟩ waiting) := by
      rw [State.behind, State.facing, next]
      rfl
    have opens : NotAt operatorOpeners (.behind ⟨offset + 1, n.text ++ rest⟩ waiting) := by
      rw [NotAt, State.behind, State.facing, next]
      rintro mark _ ⟨⟩
    have operand := operandRule_of_primary depth.succ_pos first (closes.stops _ _ _)
    have inner : (rules (depth + 3)).unary .module
        (.behind ⟨offset + 1, n.text ++ rest⟩ waiting) =
        some (.number ⟨offset + 1, offset + 1 + Text.byteSize n.text⟩ value,
          .behind ⟨offset + 1 + Text.byteSize n.text, rest⟩ waiting) :=
      unaryRule_of_operand (r := rules (depth + 2)) opens operand (closes.stops _ _ _)
    have state : State.facing previous ⟨offset, '-' :: n.text ++ rest⟩ waiting =
        ⟨⟨.mark "-", false, offset, '-' :: n.text ++ rest, offset + 1, n.text ++ rest⟩,
          previous, waiting⟩ := by
      rw [State.facing, minus]
    have sign : eat "-" (.facing previous ⟨offset, '-' :: n.text ++ rest⟩ waiting) =
        some (true, .behind ⟨offset + 1, n.text ++ rest⟩ waiting) := by
      rw [state]
      rfl
    have negation : unaryRule (rules (depth + 3)) .module
        (.facing previous ⟨offset, '-' :: n.text ++ rest⟩ waiting) =
        some (.negation ⟨offset, offset + 1 + Text.byteSize n.text⟩
          (.number ⟨offset + 1, offset + 1 + Text.byteSize n.text⟩ value),
          .behind ⟨offset + 1 + Text.byteSize n.text, rest⟩ waiting) := by
      have starts := State.start_facing (fun _ _ => rfl : StartsToken ('-' :: n.text ++ rest))
        previous offset waiting
      simp only [unaryRule, bind_apply, Parser.start, starts, sign, if_true, Option.bind_some,
        inner]
      rfl
    have arrows : NotAt arrowOpeners
        (.facing previous ⟨offset, '-' :: n.text ++ rest⟩ waiting) := by
      rw [NotAt, state]
      exact (by decide : ∀ mark ∈ arrowOpeners, plainText (.mark "-") ≠ some mark)
    have public_ : (State.facing previous ⟨offset, '-' :: n.text ++ rest⟩ waiting).lexeme.token ≠
        .privateName := by
      rw [state]
      rintro ⟨⟩
    have read := value_of_unary rfl (arrowFunction?_of_notAt true arrows) public_ negation
      (closes.stops _ _ _)
    rw [size]
    exact ⟨_, read, fun _ _ => ⟨_, _, rfl⟩⟩

theorem reads_minusInfinity :
    Reads "-Infinity".toList fun _ e =>
      ∃ span span', e = .negation span (.identifier span' "Infinity") where
  starts _ := fun _ _ => rfl
  opens _ _ _ _ _ := (by decide : ∀ mark ∈ listMarks, plainText (.mark "-") ≠ some mark)
  read depth previous offset waiting rest enough closes := by
    have long : 8 * 9 ≤ depth := enough
    obtain ⟨depth, rfl⟩ : ∃ less, depth = less + 6 := ⟨depth - 6, by omega⟩
    refine ⟨.negation ⟨offset, offset + 9⟩ (.identifier ⟨offset + 1, offset + 9⟩ "Infinity"), ?_,
      fun _ _ => ⟨_, _, rfl⟩⟩
    cases closes <;> rfl

end DesignLink.Script
