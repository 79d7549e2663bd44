import DesignLink.Proofs.Text.Span
import DesignLink.Script.Token

/-!
Scanners move forward: what they find ends at a place that the place where they start leads to, over
some characters of the text.
-/

namespace DesignLink.Script

/-- A place leads to another one over the characters between them. -/
inductive Place.Leads : Place → Place → Prop where
  | refl (place : Place) : Leads place place
  | cons {offset : Nat} {c : Char} {rest : List Char} {place : Place}
    (leads : Leads ⟨offset + c.utf8Size, rest⟩ place) : Leads ⟨offset, c :: rest⟩ place

namespace Place.Leads

variable {p p' p'' : Place} {offset size : Nat} {part text rest : List Char}

theorem trans (first : p.Leads p') (last : p'.Leads p'') : p.Leads p'' := by
  induction first with
  | refl place => exact last
  | cons _ ih => exact .cons (ih last)

theorem le (leads : p.Leads p') : p.offset ≤ p'.offset := by
  induction leads with
  | refl place => exact Nat.le_refl _
  | cons _ ih => exact Nat.le_trans (Nat.le_add_right _ _) ih

theorem of_append : ∀ {part : List Char} {offset : Nat},
    Leads ⟨offset, part ++ rest⟩ ⟨offset + Text.byteSize part, rest⟩
  | [], _ => .refl _
  | c :: part, offset => by
    have later : Leads ⟨offset + c.utf8Size, part ++ rest⟩
        ⟨offset + c.utf8Size + Text.byteSize part, rest⟩ := of_append
    rw [Nat.add_assoc] at later
    exact .cons later

theorem of_part (shape : text = part ++ rest) (sizes : Text.byteSize part = size) :
    Leads ⟨offset, text⟩ ⟨offset + size, rest⟩ := by
  subst shape sizes
  exact of_append

theorem of_rest {c : Char} (shape : p.rest = c :: rest)
    (leads : Leads ⟨p.offset + c.utf8Size, rest⟩ p') : p.Leads p' := by
  obtain ⟨offset, text⟩ := p
  subst shape
  exact .cons leads

theorem rest_ne_nil (leads : p.Leads p') (more : p'.rest ≠ []) : p.rest ≠ [] := by
  cases leads with
  | refl => exact more
  | cons => exact List.cons_ne_nil _ _

theorem goesOn {source : Source} (leads : p.Leads p') (goesOn : source.GoesOn p.offset p.rest) :
    source.GoesOn p'.offset p'.rest := by
  induction leads with
  | refl place => exact goesOn
  | cons _ ih => exact ih goesOn.behind_cons

end Place.Leads

theorem Place.leads_after {place : Place} {part rest : List Char}
    (shape : place.rest = part ++ rest) : place.Leads (place.after part rest) :=
  .of_part shape rfl

theorem Place.leads_takeWhile (place : Place) (part : Char → Bool) :
    place.Leads (place.after (place.rest.takeWhile part)
      (place.rest.drop (place.rest.takeWhile part).length)) :=
  leads_after (List.prefix_iff_eq_append.mp (List.takeWhile_prefix part)).symm

theorem Gap.leads_skip {gap : Gap} {newline newline' : Bool} {offset : Nat} {text : List Char}
    {place : Place} (found : Gap.skip gap newline offset text = some (newline', place)) :
    Place.Leads ⟨offset, text⟩ place := by
  fun_induction Gap.skip gap newline offset text
  case case3 ih | case4 ih | case5 ih => exact .cons (.cons (ih found))
  all_goals grind [Place.Leads]

/-! Strings. -/

namespace Escape

variable {text taken rest : List Char}

theorem append_of_braced {value : Nat} (found : braced text = some (value, taken, rest)) :
    text = taken ++ rest := by
  unfold braced at found
  dsimp only at found
  split at found
  case h_2 => cases found
  case h_1 rest' shape =>
    split at found <;> cases found
    rw [List.append_assoc, List.singleton_append, ← shape, List.takeWhile_append_dropWhile]

theorem append_of_fixed {count value : Nat} (found : fixed count text = some (value, taken, rest)) :
    text = taken ++ rest := by
  unfold fixed at found
  dsimp only at found
  split at found <;> cases found
  exact (List.take_append_drop count text).symm

theorem append_of_unicode {unit : StringUnit} (found : unicode text = some (unit, taken, rest)) :
    text = taken ++ rest := by
  unfold unicode at found
  split at found
  case h_1 inner =>
    obtain ⟨⟨value, taken', rest'⟩, read, same⟩ := Option.map_eq_some_iff.mp found
    cases same
    rw [append_of_braced read, List.cons_append]
  case h_2 =>
    split at found
    case h_1 => cases found
    case h_2 high taken' rest' first =>
      have whole : text = taken' ++ rest' := append_of_fixed first
      split at found
      case isFalse =>
        cases found
        exact whole
      case isTrue =>
        split at found
        case h_2 =>
          cases found
          exact whole
        case h_1 more =>
          split at found
          case h_2 =>
            cases found
            exact whole
          case h_1 low takenLow rest'' second =>
            split at found
            case isFalse =>
              cases found
              exact whole
            case isTrue =>
              cases found
              rw [whole, append_of_fixed second, List.append_assoc]
              rfl

theorem append_of_octal (first : Char) (text : List Char) :
    first :: text = (octal first text).1 ++ (octal first text).2 := by
  unfold octal
  dsimp only
  generalize (if first ≤ '3' then 2 else 1) = most
  have front : ((text.take most).takeWhile isOctal) <+: text :=
    (List.takeWhile_prefix _).trans (List.take_prefix _ _)
  rw [List.cons_append, List.prefix_iff_eq_append.mp front]

theorem append_of_read {units : List StringUnit} (found : read text = some (units, taken, rest)) :
    text = taken ++ rest := by
  unfold read at found
  split at found
  case h_1 => cases found
  case h_2 =>
    cases found
    rfl
  case h_3 rest' =>
    obtain ⟨⟨unit, taken', rest''⟩, read, same⟩ := Option.map_eq_some_iff.mp found
    cases same
    rw [append_of_unicode read, List.cons_append]
  case h_4 rest' =>
    obtain ⟨⟨value, taken', rest''⟩, read, same⟩ := Option.map_eq_some_iff.mp found
    cases same
    rw [append_of_fixed read, List.cons_append]
  case h_5 c rest' _ _ _ =>
    split at found
    case isTrue =>
      cases found
      rfl
    case isFalse =>
      split at found
      case isFalse =>
        cases found
        rfl
      case isTrue =>
        cases found
        exact append_of_octal c rest'

end Escape

theorem StringLiteral.leads_units {quote : Char} {fuel : Nat} {place place' : Place}
    {chars : List StringUnit} (found : units quote fuel place = some (chars, place')) :
    place.Leads place' := by
  fun_induction units quote fuel place generalizing chars
  case case4 escaped taken rest' read ih =>
    obtain ⟨⟨later, place⟩, ran, same⟩ := Option.map_eq_some_iff.mp found
    cases same
    rw [Escape.append_of_read read]
    exact .cons (.trans .of_append (ih ran))
  all_goals grind [Place.Leads, Option.map_eq_some_iff]

theorem StringLiteral.leads_read {quote : Char} {place place' : Place} {value : String}
    (found : StringLiteral.read quote place = some (value, place')) : place.Leads place' := by
  obtain ⟨⟨units, next⟩, read, same⟩ := Option.map_eq_some_iff.mp found
  cases same
  exact leads_units read

/-! Numbers. -/

namespace NumberLiteral

open Text

variable {text taken rest : List Char} {value : Value} {isDigit : Char → Bool}

theorem append_of_digits (found : digits isDigit text = some (taken, rest)) :
    text = taken ++ rest := by
  fun_induction digits isDigit text generalizing taken <;> grind [Option.map_eq_some_iff]

theorem append_of_someDigits (found : someDigits isDigit text = some (taken, rest)) :
    text = taken ++ rest := by
  unfold someDigits at found
  grind [Option.map_eq_some_iff, append_of_digits]

theorem append_of_anyDigits (found : anyDigits isDigit text = some (taken, rest)) :
    text = taken ++ rest := by
  unfold anyDigits at found
  grind [append_of_someDigits]

/-- A text goes on with a rest behind as many bytes as some characters have. -/
def Spans (text taken rest : List Char) : Prop :=
  ∃ part, text = part ++ rest ∧ byteSize part = byteSize taken

theorem Spans.of_append (shape : text = taken ++ rest) : Spans text taken rest :=
  ⟨taken, shape, rfl⟩

theorem Spans.behind (front : List Char) (spans : Spans text taken rest) :
    Spans (front ++ text) (front ++ taken) rest := by
  obtain ⟨part, shape, size⟩ := spans
  exact ⟨front ++ part, by rw [shape, List.append_assoc], by simp [size]⟩

theorem exponent_spans (found : exponent text = some (taken, rest)) : Spans text taken rest := by
  unfold exponent at found
  split at found
  case h_2 =>
    cases found
    exact .of_append rfl
  case h_1 e more =>
    split at found
    case isFalse =>
      cases found
      exact .of_append rfl
    case isTrue isMark =>
      have mark : e.utf8Size = 'e'.utf8Size := by rcases isMark with rfl | rfl <;> rfl
      split at found
      all_goals
        obtain ⟨⟨digits, later⟩, read, same⟩ := Option.map_eq_some_iff.mp found
        cases same
        rw [append_of_someDigits read]
      · exact ⟨e :: '+' :: digits, rfl, by simp [mark]⟩
      · exact ⟨e :: '-' :: digits, rfl, by simp [mark]⟩
      · exact ⟨e :: digits, rfl, by simp [mark]⟩

theorem fraction_spans {whole : List Char}
    (found : fraction whole text = some (value, taken, rest)) :
    Spans (whole ++ '.' :: text) taken rest := by
  obtain ⟨⟨places, later⟩, dots, found⟩ := Option.bind_eq_some_iff.mp found
  obtain ⟨⟨power, rest'⟩, powers, same⟩ := Option.bind_eq_some_iff.mp found
  cases same
  rw [append_of_anyDigits dots]
  simpa using (exponent_spans powers).behind (whole ++ '.' :: places)

theorem afterWhole_spans {whole : List Char}
    (found : afterWhole whole text = some (value, taken, rest)) :
    Spans (whole ++ text) taken rest := by
  unfold afterWhole at found
  split at found
  case h_1 => exact fraction_spans found
  case h_2 =>
    cases found
    exact .of_append (by simp)
  case h_3 =>
    obtain ⟨⟨power, rest'⟩, powers, same⟩ := Option.bind_eq_some_iff.mp found
    cases same
    exact (exponent_spans powers).behind whole

theorem radixLiteral_spans {radix : Nat} {mark : Char}
    (found : radixLiteral radix mark text = some (value, taken, rest)) :
    Spans ('0' :: mark :: text) taken rest := by
  obtain ⟨⟨digits, later⟩, read, found⟩ := Option.bind_eq_some_iff.mp found
  dsimp only at found
  split at found <;> cases found <;> exact .of_append (by simp [append_of_someDigits read])

theorem leadingZero_spans (found : leadingZero text = some (value, taken, rest)) :
    Spans ('0' :: text) taken rest := by
  have whole := List.takeWhile_append_dropWhile (p := Number.isDigit) (l := text)
  unfold leadingZero at found
  dsimp only at found
  split at found
  case isTrue =>
    cases found
    exact .of_append (by rw [List.cons_append, whole])
  case isFalse =>
    split at found
    case h_1 shape =>
      have fraction := fraction_spans found
      rwa [List.cons_append, ← shape, whole] at fraction
    case h_2 =>
      obtain ⟨⟨power, rest'⟩, powers, same⟩ := Option.bind_eq_some_iff.mp found
      cases same
      have spans := (exponent_spans powers).behind ('0' :: text.takeWhile Number.isDigit)
      rwa [List.cons_append, whole] at spans

theorem scan_spans (found : scan text = some (value, taken, rest)) : Spans text taken rest := by
  unfold scan at found
  split at found
  case h_1 =>
    obtain ⟨⟨places, later⟩, dots, found⟩ := Option.bind_eq_some_iff.mp found
    obtain ⟨⟨power, rest'⟩, powers, same⟩ := Option.bind_eq_some_iff.mp found
    cases same
    rw [append_of_someDigits dots]
    exact (exponent_spans powers).behind ('.' :: places)
  case h_2 =>
    split at found
    · exact radixLiteral_spans found
    split at found
    · exact radixLiteral_spans found
    split at found
    · exact radixLiteral_spans found
    split at found
    · exact leadingZero_spans found
    · exact afterWhole_spans found
  case h_3 =>
    obtain ⟨⟨whole, later⟩, digits, found⟩ := Option.bind_eq_some_iff.mp found
    rw [append_of_someDigits digits]
    exact afterWhole_spans found

theorem leads_read {place place' : Place} (found : NumberLiteral.read place = some (value, place')) :
    place.Leads place' := by
  obtain ⟨⟨value', taken, rest⟩, scanned, read⟩ := Option.bind_eq_some_iff.mp found
  have same : place' = place.after taken rest := by
    cases rest <;> grind
  obtain ⟨part, shape, size⟩ := scan_spans scanned
  rw [same, Place.after, ← size]
  exact .of_part shape rfl

end NumberLiteral

/-! Tokens. -/

namespace Token

variable {place place' : Place}

theorem leads_scanWord {fuel : Nat} {first escaped : Bool} {text : List Char}
    (found : scanWord fuel first place = some (text, escaped, place')) : place.Leads place' := by
  fun_induction scanWord fuel first place generalizing text escaped
  case case2 shape c taken rest' read _ ih =>
    obtain ⟨⟨later, escaped, place⟩, ran, same⟩ := Option.map_eq_some_iff.mp found
    cases same
    rw [Escape.append_of_unicode read] at shape
    refine .of_rest shape (.cons ?_)
    exact Place.Leads.of_append.trans (ih ran)
  case case6 shape _ ih =>
    obtain ⟨⟨later, escaped, place⟩, ran, same⟩ := Option.map_eq_some_iff.mp found
    cases same
    exact .of_rest shape (ih ran)
  case case8 | case10 =>
    cases found
    exact .refl _
  all_goals cases found

theorem leads_scanTemplate {fuel : Nat} {isLast isPlain : Bool}
    (found : scanTemplate fuel place = some (isLast, isPlain, place')) : place.Leads place' := by
  fun_induction scanTemplate fuel place generalizing isLast isPlain
  case case1 | case2 => cases found
  case case3 =>
    cases found
    exact .cons (.refl _)
  case case4 =>
    cases found
    exact .cons (.cons (.refl _))
  case case5 ih =>
    obtain ⟨⟨isLast, isPlain, place⟩, ran, same⟩ := Option.map_eq_some_iff.mp found
    cases same
    exact .cons (.cons (ih ran))
  case case6 ih => exact .cons (ih found)

theorem closes_scanTemplate {fuel : Nat} {isPlain : Bool}
    (found : scanTemplate fuel place = some (true, isPlain, place')) :
    ∃ closing, place.Leads ⟨closing, '\x60' :: place'.rest⟩ ∧ place'.offset = closing + 1 := by
  fun_induction scanTemplate fuel place generalizing isPlain
  case case1 | case2 | case4 => cases found
  case case3 =>
    cases found
    exact ⟨_, .refl _, rfl⟩
  case case5 ih =>
    obtain ⟨⟨isLast, isPlain, place⟩, ran, same⟩ := Option.map_eq_some_iff.mp found
    cases same
    obtain ⟨closing, leads, ends⟩ := ih ran
    exact ⟨closing, .cons (.cons leads), ends⟩
  case case6 ih =>
    obtain ⟨closing, leads, ends⟩ := ih found
    exact ⟨closing, .cons leads, ends⟩

theorem leads_scanPattern {inClass : Bool} {offset : Nat} {text : List Char}
    (found : scanPattern inClass offset text = some place) : Place.Leads ⟨offset, text⟩ place := by
  fun_induction scanPattern inClass offset text
  case case1 | case2 | case4 => cases found
  case case3 ih => exact .cons (.cons (ih found))
  case case5 slash =>
    cases found
    rw [slash.1]
    exact .cons (.refl _)
  case case6 ih => exact .cons (ih found)

theorem leads_scanFlags (found : scanFlags place = some place') : place.Leads place' := by
  simp only [scanFlags] at found
  split at found
  · cases found
    exact place.leads_takeWhile _
  · cases found

theorem leads_mark {text : String} (begins : text.toList <+: place.rest) :
    place.Leads ⟨place.offset + text.utf8ByteSize, place.rest.drop text.length⟩ := by
  refine .of_part ?_ (Text.byteSize_toList text)
  rw [← String.length_toList]
  exact (List.prefix_iff_eq_append.mp begins).symm

theorem scanMark_prefix {text : List Char} {mark : String} (found : scanMark text = some mark) :
    mark.toList <+: text := by
  unfold scanMark at found
  split at found
  case h_1 c rest =>
    split at found <;> cases found
    · exact ⟨'.' :: c :: rest, rfl⟩
    · exact ⟨c :: rest, rfl⟩
  case h_2 => exact List.isPrefixOf_iff_prefix.mp (List.find?_eq_some_iff_append.mp found).1

theorem prefix_of_scan_mark {text : String} (found : (scan place).1 = .mark text) :
    text.toList <+: place.rest := by
  unfold scan at found
  split at found
  case h_1 => cases found
  case h_2 | h_3 | h_4 | h_5 => split at found <;> cases found
  case h_6 shape =>
    dsimp only at found
    split at found
    · split at found <;> cases found
    · split at found
      case h_1 marked =>
        cases found
        exact shape ▸ scanMark_prefix marked
      case h_2 => split at found <;> cases found

theorem exists_of_scan_template {isLast isPlain : Bool}
    (found : (scan place).1 = .template isLast isPlain) :
    ∃ rest fuel, place.rest = '\x60' :: rest ∧
      scanTemplate fuel ⟨place.offset + 1, rest⟩ = some (isLast, isPlain, (scan place).2) := by
  unfold scan at found ⊢
  split at found
  case h_1 => cases found
  case h_2 | h_3 | h_5 => split at found <;> cases found
  case h_4 rest shape =>
    split at found
    case h_2 => cases found
    case h_1 read =>
      cases found
      simp only [shape]
      exact ⟨rest, _, rfl, read⟩
  case h_6 =>
    dsimp only at found
    split at found
    · split at found <;> cases found
    · split at found
      case h_1 => cases found
      case h_2 => split at found <;> cases found

theorem leads_scan (place : Place) : place.Leads (scan place).2 := by
  unfold scan
  split
  case h_1 => exact .refl _
  case h_2 shape | h_3 shape =>
    split
    case h_1 read => exact .of_rest shape (StringLiteral.leads_read read)
    case h_2 => exact .refl _
  case h_4 shape =>
    split
    case h_1 read => exact .of_rest shape (leads_scanTemplate read)
    case h_2 => exact .refl _
  case h_5 shape =>
    split
    case h_1 read => exact .of_rest shape (leads_scanWord read)
    case h_2 => exact .refl _
  case h_6 c rest shape =>
    simp only
    split
    · split
      case h_1 read | h_2 read => exact NumberLiteral.leads_read read
      case h_3 => exact .refl _
    · split
      case h_1 found => exact leads_mark (shape ▸ scanMark_prefix found)
      case h_2 =>
        split
        case h_1 read => exact leads_scanWord read
        case h_2 => exact .refl _

end Token

namespace Lexeme

theorem leads_next (place : Place) : place.Leads (next place).place := by
  unfold next
  split
  case h_1 => exact .refl _
  case h_2 skipped => exact Gap.leads_skip skipped

theorem le_start_next (place : Place) : place.offset ≤ (next place).start :=
  (leads_next place).le

theorem scan_of_next {place : Place} (isToken : (next place).token ≠ .fault) :
    Token.scan (next place).place = ((next place).token, (next place).after) := by
  unfold next at isToken ⊢
  split
  case h_1 unclosed =>
    rw [unclosed] at isToken
    exact absurd rfl isToken
  case h_2 => rfl

theorem prefix_of_next_mark {place : Place} {text : String}
    (found : (next place).token = .mark text) : text.toList <+: (next place).here := by
  have scanned := @scan_of_next place (by rw [found]; exact Token.noConfusion)
  exact Token.prefix_of_scan_mark (by rw [scanned]; exact found)

theorem exists_of_next_template {place : Place} {isLast isPlain : Bool}
    (found : (next place).token = .template isLast isPlain) :
    ∃ rest fuel, (next place).here = '\x60' :: rest ∧
      Token.scanTemplate fuel ⟨(next place).start + 1, rest⟩ =
        some (isLast, isPlain, (next place).after) := by
  have scanned := @scan_of_next place (by rw [found]; exact Token.noConfusion)
  have template := Token.exists_of_scan_template (by rw [scanned]; exact found)
  rwa [scanned] at template

theorem leads_after_next (place : Place) : (next place).place.Leads (next place).after ∨
    (next place).token = .fault ∧ (next place).rest = [] := by
  unfold next
  split
  case h_1 => exact .inr ⟨rfl, rfl⟩
  case h_2 => exact .inl (Token.leads_scan _)

theorem start_le_stop_next (place : Place) : (next place).start ≤ (next place).stop := by
  unfold next
  split
  case h_1 => exact Nat.le_refl _
  case h_2 => exact (Token.leads_scan _).le

end Lexeme

end DesignLink.Script
