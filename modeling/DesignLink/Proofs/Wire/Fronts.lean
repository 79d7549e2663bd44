import DesignLink.Proofs.Wire.Pretty

/-!
The front of a text. A scan that ends well has looked at the front of its text only: whatever stands
behind that front, the same is found. Only a number has to be told from what stands behind it.
-/

namespace DesignLink.Wire

open Number

namespace Doc

/-! Strings. -/

theorem exists_of_hexEscape {text rest : List Char} {unit : Nat}
    (escape : hexEscape text = .ok (unit, rest)) :
    ∃ four, text = four ++ rest ∧ four.length = 4 ∧
      ∀ rest', hexEscape (four ++ rest') = .ok (unit, rest') := by
  unfold hexEscape at escape
  dsimp only at escape
  split at escape
  case isTrue => cases escape
  case isFalse enough =>
    split at escape
    case h_2 => cases escape
    case h_1 value digits =>
      cases escape
      have four : (text.take 4).length = 4 := by
        rw [List.length_take] at enough ⊢
        omega
      refine ⟨text.take 4, (List.take_append_drop 4 text).symm, four, fun rest' => ?_⟩
      have front : (text.take 4 ++ rest').take 4 = text.take 4 := List.take_left' four
      have back : (text.take 4 ++ rest').drop 4 = rest' := List.drop_left' four
      unfold hexEscape
      dsimp only
      rw [front, back, if_neg (by omega), digits]

/-- The front of a text up to the closing quote of a string. -/
structure Closes (atEnd : Fault) (used : List Char) (value : Except Fault (List Char)) : Prop where
  nonempty : used ≠ []
  scans : ∀ fuel rest, used.length ≤ fuel →
    scanString atEnd fuel (used ++ rest) = ⟨value, .ok rest⟩

namespace Closes

variable {atEnd : Fault} {used : List Char} {value : Except Fault (List Char)}

theorem behind (closes : Closes atEnd used value) {front : List Char} (nonempty : front ≠ [])
    (change : Scanned → Scanned) {value' : Except Fault (List Char)}
    (step : ∀ fuel rest, scanString atEnd (fuel + 1) (front ++ (used ++ rest)) =
      change (scanString atEnd fuel (used ++ rest)))
    (changes : ∀ rest, change ⟨value, rest⟩ = ⟨value', rest⟩) :
    Closes atEnd (front ++ used) value' := by
  refine ⟨List.append_ne_nil_of_left_ne_nil nonempty used, fun fuel rest enough => ?_⟩
  have some_ := List.length_pos_iff.mpr nonempty
  rw [List.length_append] at enough
  obtain ⟨fuel, rfl⟩ : ∃ smaller, fuel = smaller + 1 := ⟨fuel - 1, by omega⟩
  rw [List.append_assoc, step, closes.scans fuel rest (by omega), changes]

theorem ne_backslash (closes : Closes atEnd used value) : used ≠ ['\\'] := by
  rintro rfl
  have read := closes.scans 1 [] (Nat.le_refl 1)
  have failed : scanString atEnd 1 ['\\'] = .fail atEnd := rfl
  rw [List.append_nil, failed] at read
  cases read

theorem ne_unicode (closes : Closes atEnd used value) {rest : List Char}
    (single : ∀ after, used ++ rest = '\\' :: 'u' :: after → False) {rest' : List Char}
    (after : List Char) : used ++ rest' ≠ '\\' :: 'u' :: after := by
  intro same
  match used, closes with
  | [], closes => exact closes.nonempty rfl
  | [c], closes =>
    obtain ⟨rfl, -⟩ := List.cons.inj same
    exact closes.ne_backslash rfl
  | c :: d :: more, _ =>
    obtain ⟨first, same⟩ := List.cons.inj same
    obtain ⟨second, -⟩ := List.cons.inj same
    exact single (more ++ rest) (by rw [first, second]; rfl)

end Closes

theorem exists_of_push {c : Char} {s : Scanned} {value : Except Fault (List Char)} {rest : Rest}
    (pushed : s.push c = ⟨value, rest⟩) :
    ∃ value', s = ⟨value', rest⟩ ∧ value = value'.map (c :: ·) := by
  obtain ⟨value', rest'⟩ := s
  cases pushed
  exact ⟨value', rfl, rfl⟩

theorem exists_of_spoil {fault : Fault} {s : Scanned} {value : Except Fault (List Char)}
    {rest : Rest} (spoiled : s.spoil fault = ⟨value, rest⟩) :
    ∃ value', s = ⟨value', rest⟩ ∧ value = .error fault := by
  obtain ⟨value', rest'⟩ := s
  cases spoiled
  exact ⟨value', rfl, rfl⟩

theorem Closes.unicode {atEnd : Fault} {used four : List Char} {value : Except Fault (List Char)}
    {unit : Nat} (closes : Closes atEnd used value) (change : Scanned → Scanned)
    {value' : Except Fault (List Char)}
    (reads : ∀ rest, hexEscape (four ++ rest) = .ok (unit, rest))
    (step : ∀ fuel rest text, hexEscape text = .ok (unit, used ++ rest) →
      scanString atEnd (fuel + 1) ('\\' :: 'u' :: text) =
        change (scanString atEnd fuel (used ++ rest)))
    (changes : ∀ rest, change ⟨value, rest⟩ = ⟨value', rest⟩) :
    Closes atEnd ('\\' :: 'u' :: four ++ used) value' :=
  closes.behind (List.cons_ne_nil _ _) change (fun fuel rest => step fuel rest _ (reads _)) changes

theorem scanString_pair {atEnd : Fault} {fuel unit low : Nat} {text after rest : List Char}
    (noLow : ¬(0xDC00 ≤ unit ∧ unit ≤ 0xDFFF)) (high : 0xD800 ≤ unit ∧ unit ≤ 0xDBFF)
    (escape : hexEscape text = .ok (unit, '\\' :: 'u' :: after))
    (escape' : hexEscape after = .ok (low, rest)) :
    scanString atEnd (fuel + 1) ('\\' :: 'u' :: text) =
      if 0xDC00 ≤ low ∧ low ≤ 0xDFFF then
        (scanString atEnd fuel rest).push
          (Char.ofNat (0x10000 + (unit - 0xD800) * 0x400 + (low - 0xDC00)))
      else (scanString atEnd fuel rest).spoil .loneSurrogate := by
  rw [scanString, escape]
  dsimp only
  rw [if_neg noLow, if_pos high]
  split
  case h_1 same =>
    cases same
    rw [escape']
  case h_2 other => exact absurd rfl (other after)

theorem exists_closes (atEnd : Fault) (fuel : Nat) (text : List Char) :
    ∀ {value : Except Fault (List Char)} {rest : List Char},
      scanString atEnd fuel text = ⟨value, .ok rest⟩ →
        ∃ used, text = used ++ rest ∧ Closes atEnd used value := by
  fun_induction scanString atEnd fuel text
  case case1 | case2 | case4 | case5 | case7 | case13 | case14 => intro _ _ failed; cases failed
  case case3 rest =>
    intro _ _ closed
    cases closed
    refine ⟨['"'], rfl, List.cons_ne_nil _ _, fun fuel rest enough => ?_⟩
    obtain ⟨fuel, rfl⟩ := Nat.exists_eq_succ_of_ne_zero (Nat.ne_of_gt enough)
    rfl
  case case6 fuel text unit after escape low ih =>
    -- The second half of a pair without the first.
    intro _ _ scanned
    obtain ⟨value, inside, rfl⟩ := exists_of_spoil scanned
    obtain ⟨used, rfl, closes⟩ := ih inside
    obtain ⟨four, rfl, -, reads⟩ := exists_of_hexEscape escape
    refine ⟨'\\' :: 'u' :: four ++ used, by simp,
      closes.unicode (.spoil .loneSurrogate) reads (fun fuel rest text escape => ?_) fun _ => rfl⟩
    rw [scanString, escape]
    dsimp only
    rw [if_pos low]
  case case8 fuel text unit noLow high after low rest escape' isLow _ escape ih =>
    intro _ _ scanned
    obtain ⟨value, inside, rfl⟩ := exists_of_push scanned
    obtain ⟨used, rfl, closes⟩ := ih inside
    obtain ⟨four, rfl, -, reads⟩ := exists_of_hexEscape escape
    obtain ⟨four', rfl, -, reads'⟩ := exists_of_hexEscape escape'
    refine ⟨'\\' :: 'u' :: (four ++ '\\' :: 'u' :: four') ++ used, by simp, closes.behind
      (List.cons_ne_nil _ _) (.push (Char.ofNat (0x10000 + (unit - 0xD800) * 0x400 +
        (low - 0xDC00)))) (fun fuel rest => ?_) fun _ => rfl⟩
    rw [List.cons_append, List.cons_append, List.append_assoc, List.cons_append, List.cons_append,
      scanString_pair noLow high (reads _) (reads' _), if_pos isLow]
  case case9 fuel text unit noLow high after low rest escape' isLow escape ih =>
    -- Two halves of which the second is none.
    intro _ _ scanned
    obtain ⟨value, inside, rfl⟩ := exists_of_spoil scanned
    obtain ⟨used, rfl, closes⟩ := ih inside
    obtain ⟨four, rfl, -, reads⟩ := exists_of_hexEscape escape
    obtain ⟨four', rfl, -, reads'⟩ := exists_of_hexEscape escape'
    refine ⟨'\\' :: 'u' :: (four ++ '\\' :: 'u' :: four') ++ used, by simp, closes.behind
      (List.cons_ne_nil _ _) (.spoil .loneSurrogate) (fun fuel rest => ?_) fun _ => rfl⟩
    rw [List.cons_append, List.cons_append, List.append_assoc, List.cons_append, List.cons_append,
      scanString_pair noLow high (reads _) (reads' _), if_neg isLow]
  case case10 fuel text unit after escape noLow high single ih =>
    -- The first half of a pair without the second.
    intro _ _ scanned
    obtain ⟨value, inside, rfl⟩ := exists_of_spoil scanned
    obtain ⟨used, rfl, closes⟩ := ih inside
    obtain ⟨four, rfl, -, reads⟩ := exists_of_hexEscape escape
    refine ⟨'\\' :: 'u' :: four ++ used, by simp,
      closes.unicode (.spoil .endInHexEscape) reads (fun fuel rest text escape => ?_) fun _ => rfl⟩
    rw [scanString, escape]
    dsimp only
    rw [if_neg noLow, if_pos high]
    split
    case h_1 after same => exact absurd same (closes.ne_unicode single after)
    case h_2 => rfl
  case case11 fuel text unit after escape noLow noHigh ih =>
    intro _ _ scanned
    obtain ⟨value, inside, rfl⟩ := exists_of_push scanned
    obtain ⟨used, rfl, closes⟩ := ih inside
    obtain ⟨four, rfl, -, reads⟩ := exists_of_hexEscape escape
    refine ⟨'\\' :: 'u' :: four ++ used, by simp,
      closes.unicode (.push (Char.ofNat unit)) reads (fun fuel rest text escape => ?_)
        fun _ => rfl⟩
    rw [scanString, escape]
    dsimp only
    rw [if_neg noLow, if_neg noHigh]
  case case12 fuel c text noUnit d escape ih =>
    intro _ _ scanned
    obtain ⟨value, inside, rfl⟩ := exists_of_push scanned
    obtain ⟨used, rfl, closes⟩ := ih inside
    refine ⟨'\\' :: c :: used, rfl, closes.behind (List.cons_ne_nil '\\' [c]) (.push d)
      (fun fuel rest => ?_) fun _ => rfl⟩
    rw [List.cons_append, List.singleton_append, scanString, escape]
    exact noUnit
  case case15 fuel c text noQuote ends _ escapes visible ih =>
    intro _ _ scanned
    obtain ⟨value, inside, rfl⟩ := exists_of_push scanned
    obtain ⟨used, rfl, closes⟩ := ih inside
    refine ⟨c :: used, rfl, closes.behind (List.cons_ne_nil c []) (.push c)
      (fun fuel rest => ?_) fun _ => rfl⟩
    have noBackslash : c ≠ '\\' := by
      rintro rfl
      cases text : used ++ _ with
      | nil => exact ends rfl text
      | cons d more => exact escapes d more rfl text
    rw [List.singleton_append]
    simp [scanString, noBackslash, visible]

end Doc

/-! Numbers. -/

namespace Numeral

theorem allDigits_takeWhile (text : List Char) : AllDigits (text.takeWhile isDigit) :=
  List.all_eq_true.mp List.all_takeWhile

theorem exists_of_splitPlaces {front text found rest : List Char}
    (split : splitPlaces front text = .ok (found, rest)) :
    ∃ used, text = used ++ rest ∧ (∃ c more, used = c :: more ∧ isDigit c = true) ∧
      ∀ rest', (∀ c ∈ rest'.head?, isDigit c = false) →
        splitPlaces front (used ++ rest') = .ok (found, rest') := by
  unfold splitPlaces at split
  split at split
  case h_1 => cases split
  case h_2 => cases split
  case h_3 noDigits _ =>
    cases split
    have digits := allDigits_takeWhile text
    obtain ⟨c, more, shape⟩ := List.exists_cons_of_ne_nil noDigits
    refine ⟨text.takeWhile isDigit, List.takeWhile_append_dropWhile.symm,
      ⟨c, more, shape, digits c (by rw [shape]; exact List.mem_cons_self)⟩, fun rest' stops => ?_⟩
    exact splitPlaces_digits front digits noDigits stops

/-- What begins neither a digit nor a point. -/
def EndsPlaces (rest : List Char) : Prop := ∀ c ∈ rest.head?, isDigit c = false ∧ c ≠ '.'

theorem exists_of_splitPower {front text found rest : List Char}
    (split : splitPower front text = .ok (found, rest)) :
    ∃ used, text = used ++ rest ∧ ∀ rest', EndsNumeral rest' → EndsPlaces (used ++ rest') ∧
      splitPower front (used ++ rest') = .ok (found, rest') := by
  have mark {e : Char} {more : List Char} (isMark : e = 'e' ∨ e = 'E') :
      EndsPlaces (e :: more) := by
    rintro c ⟨⟩
    rcases isMark with rfl | rfl <;> decide
  have none_ (rest' : List Char) (ends : EndsNumeral rest') : EndsPlaces ([] ++ rest') ∧
      splitPower front ([] ++ rest') = .ok (front, rest') := by
    have power := splitPower_power front .none ends
    rw [List.append_nil] at power
    exact ⟨fun c member => ⟨(ends c member).1, (ends c member).2.1⟩, power⟩
  cases text with
  | nil =>
    cases split
    exact ⟨[], rfl, none_⟩
  | cons e more =>
    unfold splitPower at split
    dsimp only at split
    by_cases isMark : e = 'e' ∨ e = 'E'
    case neg =>
      rw [if_neg isMark] at split
      cases split
      exact ⟨[], rfl, none_⟩
    case pos =>
      rw [if_pos isMark] at split
      split at split
      case h_1 digits =>
        obtain ⟨used, rfl, -, splits⟩ := exists_of_splitPlaces split
        refine ⟨e :: '+' :: used, rfl, fun rest' ends => ⟨mark isMark, ?_⟩⟩
        rw [List.cons_append, List.cons_append, splitPower, if_pos isMark]
        exact splits rest' fun c member => (ends c member).1
      case h_2 digits =>
        obtain ⟨used, rfl, -, splits⟩ := exists_of_splitPlaces split
        refine ⟨e :: '-' :: used, rfl, fun rest' ends => ⟨mark isMark, ?_⟩⟩
        rw [List.cons_append, List.cons_append, splitPower, if_pos isMark]
        exact splits rest' fun c member => (ends c member).1
      case h_3 noPlus noMinus =>
        obtain ⟨used, rfl, ⟨c, others, rfl, digit⟩, splits⟩ := exists_of_splitPlaces split
        refine ⟨e :: c :: others, rfl, fun rest' ends => ⟨mark isMark, ?_⟩⟩
        have same := splits rest' fun c member => (ends c member).1
        rw [List.cons_append] at same ⊢
        unfold splitPower
        dsimp only
        rw [if_pos isMark]
        split
        case h_1 plus => obtain ⟨rfl, -⟩ := List.cons.inj plus; cases digit
        case h_2 minus => obtain ⟨rfl, -⟩ := List.cons.inj minus; cases digit
        case h_3 => exact same

theorem exists_of_splitFraction {text fraction rest : List Char}
    (split : splitFraction text = .ok (fraction, rest)) :
    text = fraction ++ rest ∧ ∀ rest', EndsPlaces rest' →
      splitFraction (fraction ++ rest') = .ok (fraction, rest') ∧
        ∀ c ∈ (fraction ++ rest').head?, isDigit c = false := by
  unfold splitFraction at split
  split at split
  case h_1 more =>
    split at split
    case h_1 => cases split
    case h_2 => cases split
    case h_3 noDigits _ =>
      cases split
      refine ⟨by rw [List.cons_append, List.takeWhile_append_dropWhile], fun rest' ends => ⟨?_, ?_⟩⟩
      · exact splitFraction_places (allDigits_takeWhile more) noDigits
          fun c member => (ends c member).1
      · rintro c ⟨⟩
        decide
  case h_2 =>
    cases split
    refine ⟨rfl, fun rest' ends => ⟨?_, fun c member => (ends c member).1⟩⟩
    exact splitFraction_of_noPoint fun c member => (ends c member).2

theorem exists_of_split {text digits rest : List Char}
    (split : Numeral.split text = .ok (digits, rest)) :
    ∃ used, text = used ++ rest ∧ used ≠ [] ∧ ∀ rest', EndsNumeral rest' →
      Numeral.split (used ++ rest') = .ok (digits, rest') := by
  have begins : text.takeWhile isDigit ≠ [] ∧
      ∀ more, text.takeWhile isDigit = '0' :: more → more = [] := by
    unfold Numeral.split at split
    dsimp only at split
    split at split
    case h_1 => cases split
    case h_2 => cases split
    case h_3 => cases split
    case h_4 noDigits zero _ =>
      refine ⟨noDigits, fun more shape => ?_⟩
      cases more with
      | nil => rfl
      | cons c more => exact (zero c more shape).elim
  obtain ⟨nonempty, noZero⟩ := begins
  rw [split_eq rfl rfl nonempty noZero] at split
  obtain ⟨⟨fraction, middle⟩, found, split⟩ := exists_of_bind split
  obtain ⟨shape, splits⟩ := exists_of_splitFraction found
  obtain ⟨power, rfl, powers⟩ := exists_of_splitPower split
  refine ⟨text.takeWhile isDigit ++ (fraction ++ power), ?_, ?_, fun rest' ends => ?_⟩
  · rw [List.append_assoc, List.append_assoc, ← shape, List.takeWhile_append_dropWhile]
  · exact List.append_ne_nil_of_left_ne_nil nonempty _
  · obtain ⟨endsPlaces, power_⟩ := powers rest' ends
    obtain ⟨fraction_, stops⟩ := splits (power ++ rest') endsPlaces
    have digits_ := allDigits_takeWhile text
    have whole := takeWhile_digits digits_ _ stops
    have behind := dropWhile_digits digits_ _ stops
    rw [List.append_assoc, List.append_assoc, split_eq whole behind nonempty noZero, fraction_,
      ok_bind]
    exact power_

end Numeral

/-! Values. -/

namespace Doc

theorem exists_space (text : List Char) :
    ∃ space, (∀ c ∈ space, IsSpace c) ∧ text = space ++ skipSpace text := by
  induction text with
  | nil => exact ⟨[], nofun, rfl⟩
  | cons c rest ih =>
    rw [skipSpace]
    split
    case isTrue isSpace =>
      obtain ⟨space, all, shape⟩ := ih
      refine ⟨c :: space, ?_, by rw [List.cons_append, ← shape]⟩
      intro d member
      rcases List.mem_cons.mp member with rfl | later
      · exact isSpace
      · exact all d later
    case isFalse => exact ⟨[], nofun, rfl⟩

theorem word_append : ∀ expected rest : List Char, word expected (expected ++ rest) = .ok rest
  | [], _ => rfl
  | c :: expected, rest => by
    rw [List.cons_append, word, if_pos rfl, word_append expected rest]

theorem eq_append_of_word : ∀ {expected text rest : List Char},
    word expected text = .ok rest → text = expected ++ rest
  | [], _, _, read => by cases read; rfl
  | _ :: _, [], _, read => nomatch read
  | c :: expected, d :: text, rest, read => by
    rw [word] at read
    split at read
    case isTrue same => rw [same, eq_append_of_word read, List.cons_append]
    case isFalse => cases read

theorem visible_of_skipSpace {text more : List Char} {c : Char} (shape : skipSpace text = c :: more) :
    c ≠ ' ' ∧ c ≠ '\n' ∧ c ≠ '\t' ∧ c ≠ '\r' := by
  induction text with
  | nil => cases shape
  | cons d rest ih =>
    rw [skipSpace] at shape
    split at shape
    case isTrue => exact ih shape
    case isFalse visible =>
      cases shape
      simpa only [not_or] using visible

theorem endsNumeral_of_isSpace {c : Char} (isSpace : IsSpace c) (rest : List Char) :
    EndsNumeral (c :: rest) := by
  rintro d ⟨⟩
  rcases isSpace with rfl | rfl | rfl | rfl <;> decide

section Values

variable {atEnd : Fault}

/-- What may stand behind a value: anything, unless the value is a number. -/
def EndsBefore (rest : List Char) : Doc → Prop
  | .numeral _ => EndsNumeral rest
  | _ => True

theorem EndsNumeral.endsBefore {rest : List Char} (ends : EndsNumeral rest) (doc : Doc) :
    doc.EndsBefore rest := by
  cases doc with
  | numeral value => exact ends
  | _ => trivial

/-- The front of a text that is scanned as a value, whatever stands behind it. -/
structure Shows (atEnd : Fault) (used : List Char) (doc : Doc) : Prop where
  nonempty : used ≠ []
  scans : ∀ fuel rest, 2 * used.length ≤ fuel → doc.EndsBefore rest →
    scan atEnd fuel (used ++ rest) = (doc, .ok rest)

/-- The front of a text that is scanned as the rest of a list. -/
structure ShowsItems (atEnd : Fault) (first : Bool) (used : List Char) (items : List Doc) :
    Prop where
  ends : first = false → ∀ rest, EndsNumeral (used ++ rest)
  nonempty : used ≠ []
  scans : ∀ fuel rest, 2 * used.length ≤ fuel →
    scanItems atEnd fuel first (used ++ rest) = (items, .ok rest)

/-- The front of a text that is scanned as the rest of an object. -/
structure ShowsMembers (atEnd : Fault) (first : Bool) (used : List Char)
    (members : List (Except Fault String × Doc)) : Prop where
  ends : first = false → ∀ rest, EndsNumeral (used ++ rest)
  nonempty : used ≠ []
  scans : ∀ fuel rest, 2 * used.length ≤ fuel →
    scanMembers atEnd fuel first (used ++ rest) = (members, .ok rest)

theorem exists_of_string? {text rest : List Char} {value : Except Fault String}
    (read : string? atEnd text = (value, .ok rest)) :
    ∃ used, text = used ++ rest ∧ ∀ rest', string? atEnd (used ++ rest') = (value, .ok rest') := by
  obtain ⟨value', scanned, rfl⟩ : ∃ value', scanString atEnd (text.length + 1) text =
      ⟨value', .ok rest⟩ ∧ value'.map String.ofList = value := by
    rw [string?] at read
    obtain ⟨first, second⟩ := Prod.mk.inj read
    exact ⟨_, by rw [← second], first⟩
  obtain ⟨used, rfl, closes⟩ := exists_closes atEnd _ _ scanned
  refine ⟨used, rfl, fun rest' => ?_⟩
  have enough : used.length ≤ (used ++ rest').length + 1 := by
    rw [List.length_append]
    omega
  rw [string?, closes.scans _ rest' enough]

/-! What a step into a list or an object can be. -/

theorem exists_of_item {fuel : Nat} {text rest : List Char} {items : List Doc}
    (scanned : (match scan atEnd fuel text with
      | (value, .error fault) => ([value], .error fault)
      | (value, .ok rest) =>
        let (items, ending) := scanItems atEnd fuel false rest
        (value :: items, ending)) = (items, (.ok rest : Rest))) :
    ∃ value later others, scan atEnd fuel text = (value, .ok later) ∧
      scanItems atEnd fuel false later = (others, .ok rest) ∧ items = value :: others := by
  split at scanned
  case h_1 => cases scanned
  case h_2 value later first =>
    obtain ⟨rfl, ending⟩ := Prod.mk.inj scanned
    exact ⟨value, later, _, first, Prod.ext rfl ending, rfl⟩

theorem scanItems_cases {fuel : Nat} {first : Bool} {text rest : List Char} {items : List Doc}
    (scanned : scanItems atEnd (fuel + 1) first text = (items, .ok rest)) :
    (skipSpace text = ']' :: rest ∧ items = []) ∨
      ∃ d more value later others, StartsValue d ∧
        (if first then skipSpace text = d :: more
          else ∃ behind, skipSpace text = ',' :: behind ∧ skipSpace behind = d :: more) ∧
        scan atEnd fuel (d :: more) = (value, .ok later) ∧
        scanItems atEnd fuel false later = (others, .ok rest) ∧ items = value :: others := by
  unfold scanItems at scanned
  dsimp only at scanned
  split at scanned
  case h_1 => cases scanned
  case h_2 behind shape =>
    cases scanned
    exact .inl ⟨shape, rfl⟩
  case h_3 c behind noEnd shape =>
    right
    cases first with
    | true =>
      rw [if_pos rfl] at scanned
      obtain ⟨value, later, others, read⟩ := exists_of_item scanned
      exact ⟨c, behind, value, later, others, ⟨visible_of_skipSpace shape, noEnd⟩, shape, read⟩
    | false =>
      rw [if_neg Bool.false_ne_true] at scanned
      split at scanned
      case isFalse => cases scanned
      case isTrue comma =>
        subst comma
        split at scanned
        case h_1 => cases scanned
        case h_2 => cases scanned
        case h_3 d more noEnd' shape' =>
          obtain ⟨value, later, others, read⟩ := exists_of_item scanned
          exact ⟨d, more, value, later, others, ⟨visible_of_skipSpace shape', noEnd'⟩,
            ⟨behind, shape, shape'⟩, read⟩

/-- A key is scanned before its value, and the value before the members behind it. -/
theorem exists_of_member {fuel : Nat} {text rest : List Char}
    {members : List (Except Fault String × Doc)}
    (scanned : scanMembers atEnd (fuel + 1) true ('"' :: text) = (members, .ok rest)) :
    ∃ key behind value later others colon, string? atEnd text = (key, .ok behind) ∧
      skipSpace behind = ':' :: colon ∧ scan atEnd fuel colon = (value, .ok later) ∧
      scanMembers atEnd fuel false later = (others, .ok rest) ∧
      members = (key, value) :: others := by
  rw [scanMembers_firstKey] at scanned
  split at scanned
  case h_1 => cases scanned
  case h_2 key behind isKey =>
    split at scanned
    case h_2 => cases scanned
    case h_3 => cases scanned
    case h_1 colon shape =>
      split at scanned
      case h_1 => cases scanned
      case h_2 value later first =>
        obtain ⟨rfl, ending⟩ := Prod.mk.inj scanned
        exact ⟨key, behind, value, later, _, colon, isKey, shape, first, Prod.ext rfl ending, rfl⟩

theorem scanMembers_cases {fuel : Nat} {first : Bool} {text rest : List Char}
    {members : List (Except Fault String × Doc)}
    (scanned : scanMembers atEnd (fuel + 1) first text = (members, .ok rest)) :
    (skipSpace text = '\x7d' :: rest ∧ members = []) ∨
      ∃ quoted key behind value later others colon,
        (if first then skipSpace text = '"' :: quoted
          else ∃ more, skipSpace text = ',' :: more ∧ skipSpace more = '"' :: quoted) ∧
        string? atEnd quoted = (key, .ok behind) ∧ skipSpace behind = ':' :: colon ∧
        scan atEnd fuel colon = (value, .ok later) ∧
        scanMembers atEnd fuel false later = (others, .ok rest) ∧
        members = (key, value) :: others := by
  unfold scanMembers at scanned
  dsimp only at scanned
  split at scanned
  case h_1 => cases scanned
  case h_2 behind shape =>
    cases scanned
    exact .inl ⟨shape, rfl⟩
  case h_3 c quoted _ shape =>
    right
    cases first with
    | true =>
      rw [if_pos rfl] at scanned
      split at scanned
      case isFalse => cases scanned
      case isTrue quote =>
        subst quote
        obtain ⟨key, behind, value, later, others, colon, read⟩ := exists_of_member scanned
        exact ⟨quoted, key, behind, value, later, others, colon, shape, read⟩
    | false =>
      rw [if_neg Bool.false_ne_true] at scanned
      split at scanned
      case isFalse => cases scanned
      case isTrue comma =>
        subst comma
        split at scanned
        case h_1 => cases scanned
        case h_3 => cases scanned
        case h_4 => cases scanned
        case h_2 quoted' shape' =>
          obtain ⟨key, behind, value, later, others, colon, read⟩ := exists_of_member scanned
          exact ⟨quoted', key, behind, value, later, others, colon, ⟨quoted, shape, shape'⟩, read⟩

/-! Fronts of values, put together. -/

theorem Shows.space {space used : List Char} {doc : Doc} (isSpace : ∀ c ∈ space, IsSpace c)
    (shows : Shows atEnd used doc) : Shows atEnd (space ++ used) doc := by
  refine ⟨List.append_ne_nil_of_right_ne_nil space shows.nonempty, fun fuel rest enough ends => ?_⟩
  rw [List.length_append] at enough
  rw [List.append_assoc, scan_append isSpace, shows.scans fuel rest (by omega) ends]

theorem endsNumeral_space {space used : List Char} (isSpace : ∀ c ∈ space, IsSpace c)
    (ends : ∀ rest, EndsNumeral (used ++ rest)) (rest : List Char) :
    EndsNumeral (space ++ used ++ rest) := by
  cases space with
  | nil => exact ends rest
  | cons c space => exact endsNumeral_of_isSpace (isSpace c List.mem_cons_self) _

theorem ShowsItems.close {space : List Char} (first : Bool) (isSpace : ∀ c ∈ space, IsSpace c) :
    ShowsItems atEnd first (space ++ [']']) [] := by
  refine ⟨fun _ => endsNumeral_space isSpace ?_, by simp, fun fuel rest enough => ?_⟩
  · rintro rest c ⟨⟩
    decide
  · rw [List.length_append] at enough
    obtain ⟨fuel, rfl⟩ : ∃ smaller, fuel = smaller + 1 := ⟨fuel - 1, by simp at enough; omega⟩
    rw [List.append_assoc, scanItems_append isSpace]
    rfl

def lead (first : Bool) (space : List Char) : List Char := if first then [] else ',' :: space

theorem exists_lead {first : Bool} {text front : List Char}
    (leads : if first then skipSpace text = front
      else ∃ behind, skipSpace text = ',' :: behind ∧ skipSpace behind = front) :
    ∃ space, (∀ c ∈ space, IsSpace c) ∧ skipSpace text = lead first space ++ front := by
  cases first with
  | true => exact ⟨[], nofun, leads⟩
  | false =>
    obtain ⟨behind, shape, shape'⟩ := leads
    obtain ⟨space, isSpace, split⟩ := exists_space behind
    refine ⟨space, isSpace, ?_⟩
    rw [shape, lead, if_neg Bool.false_ne_true, List.cons_append, ← shape']
    exact congrArg _ split

theorem endsNumeral_lead {space : List Char} (isSpace : ∀ c ∈ space, IsSpace c) (space' : List Char)
    (used rest : List Char) : EndsNumeral (space ++ (lead false space' ++ used) ++ rest) := by
  refine endsNumeral_space isSpace (fun rest => ?_) rest
  rintro c ⟨⟩
  decide

theorem ShowsItems.item (first : Bool) {space space' used used' more : List Char} {d : Char}
    {value : Doc} {others : List Doc} (isSpace : ∀ c ∈ space, IsSpace c)
    (isSpace' : ∀ c ∈ space', IsSpace c) (starts : StartsValue d) (shape : used = d :: more)
    (shows : Shows atEnd used value) (behind : ShowsItems atEnd false used' others) :
    ShowsItems atEnd first (space ++ (lead first space' ++ (used ++ used'))) (value :: others) := by
  have some_ : 0 < used.length := by rw [shape]; exact Nat.succ_pos _
  have some_' := List.length_pos_iff.mpr behind.nonempty
  refine ⟨?_, by simp [shape], fun fuel rest enough => ?_⟩
  · rintro rfl rest
    exact endsNumeral_lead isSpace space' _ rest
  · simp only [List.length_append] at enough
    obtain ⟨fuel, rfl⟩ : ∃ smaller, fuel = smaller + 1 := ⟨fuel - 1, by omega⟩
    have read := shows.scans fuel (used' ++ rest) (by omega)
      (EndsNumeral.endsBefore (behind.ends rfl rest) value)
    have later := behind.scans fuel rest (by omega)
    have step := scanItems_item atEnd fuel first starts (more ++ (used' ++ rest))
    rw [← List.cons_append, ← shape, read] at step
    dsimp only at step
    rw [later] at step
    rw [List.append_assoc, scanItems_append isSpace, List.append_assoc, List.append_assoc]
    cases first with
    | true => exact step
    | false =>
      rw [lead, if_neg Bool.false_ne_true, List.cons_append, scanItems_comma_append isSpace']
      exact step

theorem ShowsMembers.close {space : List Char} (first : Bool) (isSpace : ∀ c ∈ space, IsSpace c) :
    ShowsMembers atEnd first (space ++ ['\x7d']) [] := by
  refine ⟨fun _ => endsNumeral_space isSpace ?_, by simp, fun fuel rest enough => ?_⟩
  · rintro rest c ⟨⟩
    decide
  · rw [List.length_append] at enough
    obtain ⟨fuel, rfl⟩ : ∃ smaller, fuel = smaller + 1 := ⟨fuel - 1, by simp at enough; omega⟩
    rw [List.append_assoc, scanMembers_append isSpace]
    rfl

theorem ShowsMembers.member (first : Bool) {space space' space'' quoted used used' : List Char}
    {key : Except Fault String} {value : Doc} {others : List (Except Fault String × Doc)}
    (isSpace : ∀ c ∈ space, IsSpace c) (isSpace' : ∀ c ∈ space', IsSpace c)
    (isSpace'' : ∀ c ∈ space'', IsSpace c)
    (isKey : ∀ rest, string? atEnd (quoted ++ rest) = (key, .ok rest))
    (shows : Shows atEnd used value) (behind : ShowsMembers atEnd false used' others) :
    ShowsMembers atEnd first
      (space ++ (lead first space' ++ ('"' :: (quoted ++ (space'' ++ ':' :: (used ++ used'))))))
      ((key, value) :: others) := by
  have some_' := List.length_pos_iff.mpr behind.nonempty
  refine ⟨?_, by simp, fun fuel rest enough => ?_⟩
  · rintro rfl rest
    exact endsNumeral_lead isSpace space' _ rest
  · simp only [List.length_append, List.length_cons] at enough
    obtain ⟨fuel, rfl⟩ : ∃ smaller, fuel = smaller + 1 := ⟨fuel - 1, by omega⟩
    have read := shows.scans fuel (used' ++ rest) (by omega)
      (EndsNumeral.endsBefore (behind.ends rfl rest) value)
    have later := behind.scans fuel rest (by omega)
    have colon : skipSpace (space'' ++ ':' :: (used ++ (used' ++ rest))) =
        ':' :: (used ++ (used' ++ rest)) := by
      rw [skipSpace_append isSpace'']
      rfl
    have step := scanMembers_quote atEnd fuel first
      (quoted ++ (space'' ++ ':' :: (used ++ (used' ++ rest))))
    simp only [scanMembers_firstKey, isKey, colon, read, later] at step
    rw [List.append_assoc, scanMembers_append isSpace, List.append_assoc, List.cons_append,
      List.append_assoc, List.append_assoc, List.cons_append, List.append_assoc]
    cases first with
    | true => exact step
    | false =>
      rw [lead, if_neg Bool.false_ne_true, List.cons_append, scanMembers_comma_append isSpace']
      exact step

theorem Shows.list {used : List Char} {items : List Doc}
    (inside : ShowsItems atEnd true used items) : Shows atEnd ('[' :: used) (.list items none) := by
  refine ⟨List.cons_ne_nil _ _, fun fuel rest enough _ => ?_⟩
  rw [List.length_cons] at enough
  obtain ⟨fuel, rfl⟩ : ∃ smaller, fuel = smaller + 1 := ⟨fuel - 1, by omega⟩
  rw [List.cons_append, scan_bracket, inside.scans fuel rest (by omega)]

theorem Shows.object {used : List Char} {members : List (Except Fault String × Doc)}
    (inside : ShowsMembers atEnd true used members) :
    Shows atEnd ('\x7b' :: used) (.object members none) := by
  refine ⟨List.cons_ne_nil _ _, fun fuel rest enough _ => ?_⟩
  rw [List.length_cons] at enough
  obtain ⟨fuel, rfl⟩ : ∃ smaller, fuel = smaller + 1 := ⟨fuel - 1, by omega⟩
  rw [List.cons_append, scan_brace, inside.scans fuel rest (by omega)]

theorem Shows.word {c : Char} {expected : List Char} {doc : Doc}
    (scans : ∀ fuel text, scan atEnd (fuel + 1) (c :: text) = scanWord doc expected text) :
    Shows atEnd (c :: expected) doc := by
  refine ⟨List.cons_ne_nil _ _, fun fuel rest enough _ => ?_⟩
  rw [List.length_cons] at enough
  obtain ⟨fuel, rfl⟩ : ∃ smaller, fuel = smaller + 1 := ⟨fuel - 1, by omega⟩
  rw [List.cons_append, scans, scanWord, word_append]

theorem exists_of_scanWord {value doc : Doc} {expected text rest : List Char}
    (scanned : scanWord value expected text = (doc, .ok rest)) :
    text = expected ++ rest ∧ doc = value := by
  unfold scanWord at scanned
  split at scanned
  case h_1 read =>
    cases scanned
    exact ⟨eq_append_of_word read, rfl⟩
  case h_2 => cases scanned

theorem exists_of_scanNumeral {negative : Bool} {text rest : List Char} {doc : Doc}
    (scanned : scanNumeral negative text = (doc, .ok rest)) :
    ∃ used, text = used ++ rest ∧ used ≠ [] ∧ ∀ rest', doc.EndsBefore rest' →
      scanNumeral negative (used ++ rest') = (doc, .ok rest') := by
  unfold scanNumeral at scanned
  split at scanned
  case h_1 => cases scanned
  case h_2 digits behind split =>
    cases scanned
    obtain ⟨used, rfl, nonempty, splits⟩ := Numeral.exists_of_split split
    refine ⟨used, rfl, nonempty, fun rest' ends => ?_⟩
    rw [scanNumeral, splits rest' ends]

theorem exists_cons_of_append {used rest more : List Char} {c : Char} (nonempty : used ≠ [])
    (same : c :: more = used ++ rest) : ∃ more', used = c :: more' := by
  obtain ⟨d, more', rfl⟩ := List.exists_cons_of_ne_nil nonempty
  exact ⟨more', by rw [(List.cons.inj same).1]⟩

theorem exists_shows_leaf {c : Char} {text rest : List Char} {doc : Doc} {fuel : Nat}
    (visible : c ≠ ' ' ∧ c ≠ '\n' ∧ c ≠ '\t' ∧ c ≠ '\r') (noList : c ≠ '[')
    (noObject : c ≠ '\x7b') (scanned : scan atEnd (fuel + 1) (c :: text) = (doc, .ok rest)) :
    ∃ used, c :: text = used ++ rest ∧ Shows atEnd used doc := by
  unfold scan at scanned
  rw [skipSpace_cons visible] at scanned
  split at scanned
  case h_1 same => cases same
  case h_2 same =>
    cases same
    obtain ⟨rfl, rfl⟩ := exists_of_scanWord scanned
    exact ⟨['n', 'u', 'l', 'l'], rfl, .word fun _ _ => rfl⟩
  case h_3 same =>
    cases same
    obtain ⟨rfl, rfl⟩ := exists_of_scanWord scanned
    exact ⟨['t', 'r', 'u', 'e'], rfl, .word fun _ _ => rfl⟩
  case h_4 same =>
    cases same
    obtain ⟨rfl, rfl⟩ := exists_of_scanWord scanned
    exact ⟨['f', 'a', 'l', 's', 'e'], rfl, .word fun _ _ => rfl⟩
  case h_5 same =>
    cases same
    obtain ⟨used, rfl, -, scans⟩ := exists_of_scanNumeral scanned
    refine ⟨'-' :: used, rfl, List.cons_ne_nil _ _, fun fuel rest enough ends => ?_⟩
    rw [List.length_cons] at enough
    obtain ⟨fuel, rfl⟩ : ∃ smaller, fuel = smaller + 1 := ⟨fuel - 1, by omega⟩
    exact scans rest ends
  case h_6 same =>
    cases same
    obtain ⟨rfl, ending⟩ := Prod.mk.inj scanned
    obtain ⟨used, rfl, reads⟩ := exists_of_string? (Prod.ext rfl ending)
    refine ⟨'"' :: used, rfl, List.cons_ne_nil _ _, fun fuel rest enough ends => ?_⟩
    rw [List.length_cons] at enough
    obtain ⟨fuel, rfl⟩ : ∃ smaller, fuel = smaller + 1 := ⟨fuel - 1, by omega⟩
    have read : scan atEnd (fuel + 1) ('"' :: (used ++ rest)) =
        (.string (string? atEnd (used ++ rest)).1, (string? atEnd (used ++ rest)).2) := rfl
    rw [List.cons_append, read, reads]
    rfl
  case h_7 same => exact absurd (List.cons.inj same).1 noList
  case h_8 same => exact absurd (List.cons.inj same).1 noObject
  case h_9 same =>
    cases same
    split at scanned
    case isFalse => cases scanned
    case isTrue digit =>
      obtain ⟨used, shape, nonempty, scans⟩ := exists_of_scanNumeral scanned
      obtain ⟨more, rfl⟩ := exists_cons_of_append nonempty shape
      refine ⟨c :: more, shape, nonempty, fun fuel rest enough ends => ?_⟩
      rw [List.length_cons] at enough
      obtain ⟨fuel, rfl⟩ : ∃ smaller, fuel = smaller + 1 := ⟨fuel - 1, by omega⟩
      rw [List.cons_append, scan_digit atEnd fuel digit]
      exact scans rest ends

mutual

theorem exists_shows : ∀ {fuel : Nat} {text rest : List Char} {doc : Doc},
    scan atEnd fuel text = (doc, .ok rest) → ∃ used, text = used ++ rest ∧ Shows atEnd used doc
  | 0, _, _, _, scanned => nomatch scanned
  | fuel + 1, text, rest, doc, scanned => by
    obtain ⟨space, isSpace, shape⟩ := exists_space text
    suffices front : ∃ used, skipSpace text = used ++ rest ∧ Shows atEnd used doc by
      obtain ⟨used, same, shows⟩ := front
      refine ⟨space ++ used, ?_, shows.space isSpace⟩
      rw [List.append_assoc, ← same]
      exact shape
    rw [shape, scan_append isSpace] at scanned
    cases visible : skipSpace text with
    | nil =>
      rw [visible] at scanned
      cases scanned
    | cons c more =>
      rw [visible] at scanned
      by_cases isList : c = '['
      · subst isList
        rw [scan_bracket] at scanned
        rcases items : scanItems atEnd fuel true more with ⟨found, fault | behind⟩
        · rw [items] at scanned
          cases scanned
        · rw [items] at scanned
          cases scanned
          obtain ⟨used, rfl, inside⟩ := exists_showsItems items
          exact ⟨'[' :: used, rfl, .list inside⟩
      · by_cases isObject : c = '\x7b'
        · subst isObject
          rw [scan_brace] at scanned
          rcases members : scanMembers atEnd fuel true more with ⟨found, fault | behind⟩
          · rw [members] at scanned
            cases scanned
          · rw [members] at scanned
            cases scanned
            obtain ⟨used, rfl, inside⟩ := exists_showsMembers members
            exact ⟨'\x7b' :: used, rfl, .object inside⟩
        · exact exists_shows_leaf (visible_of_skipSpace visible) isList isObject scanned

theorem exists_showsItems : ∀ {fuel : Nat} {first : Bool} {text rest : List Char}
    {items : List Doc}, scanItems atEnd fuel first text = (items, .ok rest) →
      ∃ used, text = used ++ rest ∧ ShowsItems atEnd first used items
  | 0, _, _, _, _, scanned => nomatch scanned
  | fuel + 1, first, text, rest, items, scanned => by
    obtain ⟨space, isSpace, shape⟩ := exists_space text
    obtain ⟨close, rfl⟩ | ⟨d, more, value, later, others, starts, front, read, behind, rfl⟩ :=
      scanItems_cases scanned
    · refine ⟨space ++ [']'], ?_, .close first isSpace⟩
      rw [List.append_assoc, List.singleton_append, ← close]
      exact shape
    · obtain ⟨used, same, shows⟩ := exists_shows read
      obtain ⟨used', rfl, showsItems⟩ := exists_showsItems behind
      obtain ⟨more', shape'⟩ := exists_cons_of_append shows.nonempty same
      obtain ⟨space', isSpace', leads⟩ := exists_lead front
      refine ⟨_, ?_, .item first isSpace isSpace' starts shape' shows showsItems⟩
      rw [shape, leads, same]
      simp only [List.append_assoc]

theorem exists_showsMembers : ∀ {fuel : Nat} {first : Bool} {text rest : List Char}
    {members : List (Except Fault String × Doc)},
      scanMembers atEnd fuel first text = (members, .ok rest) →
        ∃ used, text = used ++ rest ∧ ShowsMembers atEnd first used members
  | 0, _, _, _, _, scanned => nomatch scanned
  | fuel + 1, first, text, rest, members, scanned => by
    obtain ⟨space, isSpace, shape⟩ := exists_space text
    obtain ⟨close, rfl⟩ | ⟨quoted, key, behind, value, later, others, colon, front, isKey, shape',
      read, members, rfl⟩ := scanMembers_cases scanned
    · refine ⟨space ++ ['\x7d'], ?_, .close first isSpace⟩
      rw [List.append_assoc, List.singleton_append, ← close]
      exact shape
    · obtain ⟨used, rfl, shows⟩ := exists_shows read
      obtain ⟨used', rfl, showsMembers⟩ := exists_showsMembers members
      obtain ⟨front', rfl, keys⟩ := exists_of_string? isKey
      obtain ⟨space', isSpace', leads⟩ := exists_lead front
      obtain ⟨space'', isSpace'', colon⟩ := exists_space behind
      refine ⟨_, ?_, .member first isSpace isSpace' isSpace'' keys shows showsMembers⟩
      rw [shape, leads, colon, shape']
      simp only [List.append_assoc, List.cons_append]

end

/-- A list or an object that ends. -/
inductive Ends : Doc → Prop
  | list (items : List Doc) : Ends (.list items none)
  | object (members : List (Except Fault String × Doc)) : Ends (.object members none)

theorem Ends.endsBefore {doc : Doc} (ends : doc.Ends) (rest : List Char) : doc.EndsBefore rest := by
  cases ends <;> trivial

theorem Ends.not_numeral {negative : Bool} {text : List Char} {doc : Doc} {ending : Rest}
    (ends : doc.Ends) (scanned : scanNumeral negative text = (doc, ending)) : False := by
  unfold scanNumeral at scanned
  split at scanned
  case h_1 => cases scanned; cases ends
  case h_2 => cases scanned; cases ends

theorem Ends.exists_rest {fuel : Nat} {text : List Char} {doc : Doc} {ending : Rest}
    (ends : doc.Ends) (scanned : scan atEnd fuel text = (doc, ending)) :
    ∃ rest, ending = .ok rest := by
  cases ending with
  | ok rest => exact ⟨rest, rfl⟩
  | error fault =>
    exfalso
    cases fuel with
    | zero => cases scanned; cases ends
    | succ fuel =>
      unfold scan at scanned
      split at scanned
      case h_1 => cases scanned; cases ends
      case h_2 | h_3 | h_4 =>
        unfold scanWord at scanned
        split at scanned
        case h_1 => cases scanned
        case h_2 => cases scanned; cases ends
      case h_5 => exact ends.not_numeral scanned
      case h_6 =>
        obtain ⟨rfl, -⟩ := Prod.mk.inj scanned
        cases ends
      case h_7 text _ =>
        rcases items : scanItems atEnd fuel true text with ⟨found, fault' | rest⟩
        · rw [items] at scanned
          cases scanned
          cases ends
        · rw [items] at scanned
          cases scanned
      case h_8 text _ =>
        rcases members : scanMembers atEnd fuel true text with ⟨found, fault' | rest⟩
        · rw [members] at scanned
          cases scanned
          cases ends
        · rw [members] at scanned
          cases scanned
      case h_9 =>
        split at scanned
        case isFalse => cases scanned; cases ends
        case isTrue => exact ends.not_numeral scanned

theorem exists_front {text rest : List Char} {doc : Doc}
    (scanned : ofText text atEnd = (doc, .ok rest)) :
    ∃ used, text = used ++ rest ∧
      ∀ rest', doc.EndsBefore rest' → ofText (used ++ rest') atEnd = (doc, .ok rest') := by
  obtain ⟨used, shape, shows⟩ := exists_shows scanned
  refine ⟨used, shape, fun rest' ends => shows.scans _ rest' ?_ ends⟩
  rw [List.length_append]
  omega

end Values

end Doc

end DesignLink.Wire
