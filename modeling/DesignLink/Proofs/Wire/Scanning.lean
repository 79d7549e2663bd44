import DesignLink.Proofs.Wire.Numerals
import DesignLink.Proofs.Wire.Strings
import DesignLink.Wire.Reader

/-!
Written documents are scanned as a whole: what is written for a document value is scanned as the
value, whatever list or object it stands in.
-/

namespace DesignLink.Wire

open Number

mutual

def scanned : Json → Doc
  | .null => .null
  | .boolean value => .boolean value
  | .integer value => .numeral (Numeral.ofText (value < 0) (Nat.toDigits 10 value.natAbs))
  | .real (.finite negative m) => .numeral (Numeral.ofText negative (magnitudeText m).toList)
  | .real _ => .null
  | .string value => .string (.ok value)
  | .list items => .list (scannedItems items) none
  | .object members => .object (scannedMembers members) none

def scannedItems : List Json → List Doc
  | [] => []
  | item :: rest => scanned item :: scannedItems rest

def scannedMembers : List (String × Json) → List (Except Fault String × Doc)
  | [] => []
  | (key, value) :: rest => (.ok key, scanned value) :: scannedMembers rest

end

def itemsTail : List Json → List Char
  | [] => [']']
  | item :: rest => ',' :: (item.compact.toList ++ itemsTail rest)

theorem toList_compactItems (item : Json) (rest : List Json) :
    (Json.compactItems (item :: rest)).toList ++ [']'] = item.compact.toList ++ itemsTail rest := by
  induction rest generalizing item with
  | nil => rw [Json.compactItems, itemsTail]
  | cons next rest ih =>
    have shape : Json.compactItems (item :: next :: rest) =
        item.compact ++ "," ++ Json.compactItems (next :: rest) := by
      rw [Json.compactItems]
      exact List.cons_ne_nil _ _
    rw [shape, itemsTail, ← ih]
    simp

def memberText (member : String × Json) : List Char :=
  '"' :: (Doc.escapedTail member.1 ++ ':' :: member.2.compact.toList)

theorem length_memberText (key : String) (value : Json) : (memberText (key, value)).length =
    (Doc.escapedTail key).length + value.compact.toList.length + 2 := by
  simp only [memberText, List.length_cons, List.length_append]
  omega

def membersTail : List (String × Json) → List Char
  | [] => ['\x7d']
  | member :: rest => ',' :: (memberText member ++ membersTail rest)

theorem toList_compactMembers (member : String × Json) (rest : List (String × Json)) :
    (Json.compactMembers (member :: rest)).toList ++ ['\x7d'] =
      memberText member ++ membersTail rest := by
  induction rest generalizing member with
  | nil =>
    obtain ⟨key, value⟩ := member
    rw [Json.compactMembers, membersTail, memberText]
    simp [Doc.toList_quote]
  | cons next rest ih =>
    obtain ⟨key, value⟩ := member
    have shape : Json.compactMembers ((key, value) :: next :: rest) =
        Json.quote key ++ ":" ++ value.compact ++ "," ++ Json.compactMembers (next :: rest) := by
      rw [Json.compactMembers]
      exact List.cons_ne_nil _ _
    rw [shape, membersTail, ← ih, memberText]
    simp [Doc.toList_quote]

theorem endsNumeral_itemsTail (items : List Json) (rest : List Char) :
    EndsNumeral (itemsTail items ++ rest) := by
  cases items with
  | nil => rintro c ⟨⟩; decide
  | cons item items => rintro c ⟨⟩; decide

theorem endsNumeral_membersTail (members : List (String × Json)) (rest : List Char) :
    EndsNumeral (membersTail members ++ rest) := by
  cases members with
  | nil => rintro c ⟨⟩; decide
  | cons member members => rintro c ⟨⟩; decide

namespace Doc

theorem skipSpace_cons {c : Char} (visible : c ≠ ' ' ∧ c ≠ '\n' ∧ c ≠ '\t' ∧ c ≠ '\r')
    (rest : List Char) : skipSpace (c :: rest) = c :: rest := by
  simp [skipSpace, visible]

theorem scan_digit (atEnd : Fault) (fuel : Nat) {c : Char} (digit : isDigit c = true)
    (rest : List Char) : scan atEnd (fuel + 1) (c :: rest) = scanNumeral false (c :: rest) := by
  have visible : c ≠ ' ' ∧ c ≠ '\n' ∧ c ≠ '\t' ∧ c ≠ '\r' := by
    refine ⟨?_, ?_, ?_, ?_⟩ <;> rintro rfl <;> cases digit
  rw [scan, skipSpace_cons visible]
  split
  case h_1 same => cases same
  case h_2 same => obtain ⟨rfl, -⟩ := List.cons.inj same; cases digit
  case h_3 same => obtain ⟨rfl, -⟩ := List.cons.inj same; cases digit
  case h_4 same => obtain ⟨rfl, -⟩ := List.cons.inj same; cases digit
  case h_5 same => obtain ⟨rfl, -⟩ := List.cons.inj same; cases digit
  case h_6 same => obtain ⟨rfl, -⟩ := List.cons.inj same; cases digit
  case h_7 same => obtain ⟨rfl, -⟩ := List.cons.inj same; cases digit
  case h_8 same => obtain ⟨rfl, -⟩ := List.cons.inj same; cases digit
  case h_9 same =>
    obtain ⟨rfl, rfl⟩ := List.cons.inj same
    rw [if_pos digit]

theorem scan_numeral (atEnd : Fault) (fuel : Nat) (negative : Bool) (n : Number.Numeral)
    {power rest : List Char} (isPower : IsPower power) (ends : EndsNumeral rest) :
    scan atEnd (fuel + 1) ((if negative then ['-'] else []) ++ (n.text ++ power) ++ rest) =
      (.numeral (Numeral.ofText negative (n.text ++ power)), .ok rest) := by
  have split := Numeral.split_text n isPower ends
  rw [List.append_assoc, List.append_assoc n.text]
  cases negative with
  | true =>
    have read : scan atEnd (fuel + 1) ('-' :: (n.text ++ (power ++ rest))) =
        scanNumeral true (n.text ++ (power ++ rest)) := rfl
    rw [if_pos rfl, List.singleton_append, read, scanNumeral, split]
  | false =>
    obtain ⟨c, more, shape, digit⟩ := n.text_eq_cons
    have read := scan_digit atEnd fuel digit (more ++ (power ++ rest))
    rw [← List.cons_append, ← shape] at read
    rw [if_neg Bool.false_ne_true, List.nil_append, read, scanNumeral, split]

structure StartsValue (c : Char) : Prop where
  visible : c ≠ ' ' ∧ c ≠ '\n' ∧ c ≠ '\t' ∧ c ≠ '\r'
  noEnd : c ≠ ']'

theorem startsValue_of_isDigit {c : Char} (digit : isDigit c = true) : StartsValue c := by
  constructor
  · refine ⟨?_, ?_, ?_, ?_⟩ <;> rintro rfl <;> cases digit
  · rintro rfl
    cases digit

theorem toList_real (negative : Bool) (m : Magnitude) :
    (Json.real (.finite negative m)).compact.toList =
      (if negative then ['-'] else []) ++ (magnitudeText m).toList := by
  rw [Json.compact, realText_finite, withSign]
  cases negative <;> simp

theorem toList_integer (value : Int) : (Json.integer value).compact.toList =
    (if decide (value < 0) then ['-'] else []) ++ Nat.toDigits 10 value.natAbs := by
  rw [Json.compact]
  cases value with
  | ofNat n => simp [toString, Int.repr]
  | negSucc n => simp [toString, Int.repr, Int.negSucc_lt_zero]

theorem compact_starts (json : Json) :
    ∃ c more, json.compact.toList = c :: more ∧ StartsValue c := by
  have word (c : Char) (more : List Char) (starts : StartsValue c) :
      ∃ c' more', c :: more = c' :: more' ∧ StartsValue c' := ⟨c, more, rfl, starts⟩
  have null : ∃ c more, "null".toList = c :: more ∧ StartsValue c :=
    ⟨'n', "ull".toList, by decide, by decide, by decide⟩
  have signed (negative : Bool) (n : Number.Numeral) (power : List Char) :
      ∃ c more, (if negative then ['-'] else []) ++ (n.text ++ power) = c :: more ∧
        StartsValue c := by
    obtain ⟨c, more, shape, digit⟩ := n.text_eq_cons
    rw [shape]
    cases negative with
    | true => exact ⟨'-', _, rfl, by decide, by decide⟩
    | false => exact ⟨c, _, rfl, startsValue_of_isDigit digit⟩
  cases json with
  | null =>
    rw [Json.compact]
    exact null
  | boolean value =>
    rw [Json.compact]
    cases value with
    | true => exact ⟨'t', "rue".toList, by decide, by decide, by decide⟩
    | false => exact ⟨'f', "alse".toList, by decide, by decide, by decide⟩
  | integer value =>
    rw [toList_integer]
    have text : (Number.Numeral.ofNat value.natAbs).text = Nat.toDigits 10 value.natAbs := rfl
    rw [← text, ← List.append_nil (Number.Numeral.ofNat value.natAbs).text]
    exact signed _ _ []
  | real value =>
    cases value with
    | finite negative m =>
      obtain ⟨n, power, -, shape⟩ := exists_numeral_document m
      rw [toList_real, shape]
      exact signed _ _ _
    | infinite negative =>
      rw [Json.compact]
      exact null
    | undefined =>
      rw [Json.compact]
      exact null
  | string value =>
    rw [Json.compact, toList_quote]
    exact ⟨'"', _, rfl, by decide, by decide⟩
  | list items =>
    rw [Json.compact]
    exact ⟨'[', (Json.compactItems items ++ "]").toList, by simp, by decide, by decide⟩
  | object members =>
    rw [Json.compact]
    exact ⟨'\x7b', (Json.compactMembers members ++ "\x7d").toList, by simp, by decide, by decide⟩

theorem scanItems_comma (atEnd : Fault) (fuel : Nat) (text : List Char) :
    scanItems atEnd (fuel + 1) false (',' :: text) =
      match skipSpace text with
      | [] => ([], .error .endInValue)
      | ']' :: _ => ([], .error .trailingComma)
      | d :: rest =>
        match scan atEnd fuel (d :: rest) with
        | (value, .error fault) => ([value], .error fault)
        | (value, .ok rest) =>
          let (items, ending) := scanItems atEnd fuel false rest
          (value :: items, ending) := rfl

theorem scanItems_item (atEnd : Fault) (fuel : Nat) (first : Bool) {c : Char}
    (starts : StartsValue c) (more : List Char) :
    scanItems atEnd (fuel + 1) first ((if first then [] else [',']) ++ c :: more) =
      match scan atEnd fuel (c :: more) with
      | (value, .error fault) => ([value], .error fault)
      | (value, .ok rest) =>
        let (items, ending) := scanItems atEnd fuel false rest
        (value :: items, ending) := by
  have nonempty : c :: more ≠ [] := List.cons_ne_nil c more
  have noEnd : ∀ rest, c :: more ≠ ']' :: rest := fun _ same => starts.noEnd (List.cons.inj same).1
  cases first with
  | true =>
    rw [if_pos rfl, List.nil_append, scanItems, skipSpace_cons starts.visible]
    split
    case h_1 same => exact absurd same nonempty
    case h_2 same => exact absurd same (noEnd _)
    case h_3 same =>
      obtain ⟨rfl, rfl⟩ := List.cons.inj same
      rfl
  | false =>
    rw [if_neg Bool.false_ne_true, List.singleton_append, scanItems_comma,
      skipSpace_cons starts.visible]
    split
    case h_1 same => exact absurd same nonempty
    case h_2 same => exact absurd same (noEnd _)
    case h_3 same =>
      obtain ⟨rfl, rfl⟩ := List.cons.inj same
      rfl

theorem scanMembers_firstKey (atEnd : Fault) (fuel : Nat) (rest : List Char) :
    scanMembers atEnd (fuel + 1) true ('"' :: rest) =
      match string? atEnd rest with
      | (key, .error fault) => ([(key, .broken fault)], .error fault)
      | (key, .ok rest) =>
        match skipSpace rest with
        | ':' :: rest =>
          match scan atEnd fuel rest with
          | (value, .error fault) => ([(key, value)], .error fault)
          | (value, .ok rest) =>
            let (members, ending) := scanMembers atEnd fuel false rest
            ((key, value) :: members, ending)
        | [] => ([(key, .broken .endInObject)], .error .endInObject)
        | _ => ([(key, .broken .colonExpected)], .error .colonExpected) := rfl

theorem scanMembers_quote (atEnd : Fault) (fuel : Nat) (first : Bool) (rest : List Char) :
    scanMembers atEnd (fuel + 1) first ((if first then [] else [',']) ++ '"' :: rest) =
      scanMembers atEnd (fuel + 1) true ('"' :: rest) := by
  cases first <;> rfl

theorem scanMembers_member (atEnd : Fault) (fuel : Nat) (first : Bool) (key : String)
    (rest : List Char) :
    scanMembers atEnd (fuel + 1) first
        ((if first then [] else [',']) ++ '"' :: (escapedTail key ++ ':' :: rest)) =
      match scan atEnd fuel rest with
      | (value, .error fault) => ([(.ok key, value)], .error fault)
      | (value, .ok rest) =>
        let (members, ending) := scanMembers atEnd fuel false rest
        ((.ok key, value) :: members, ending) := by
  rw [scanMembers_quote, scanMembers_firstKey, string?_escapedTail]
  rfl

mutual

theorem scan_compact (atEnd : Fault) : ∀ (json : Json) (fuel : Nat) (rest : List Char),
    2 * json.compact.toList.length ≤ fuel → EndsNumeral rest →
      scan atEnd fuel (json.compact.toList ++ rest) = (scanned json, .ok rest)
  | json, 0, rest, enough, _ => by
    obtain ⟨c, more, shape, -⟩ := compact_starts json
    rw [shape, List.length_cons] at enough
    omega
  | .null, fuel + 1, rest, _, _ => rfl
  | .boolean true, fuel + 1, rest, _, _ => rfl
  | .boolean false, fuel + 1, rest, _, _ => rfl
  | .integer value, fuel + 1, rest, _, ends => by
    have text : (Number.Numeral.ofNat value.natAbs).text ++ [] = Nat.toDigits 10 value.natAbs :=
      List.append_nil _
    have read := scan_numeral atEnd fuel (value < 0) (.ofNat value.natAbs) .none ends
    rw [text] at read
    rw [toList_integer, scanned]
    exact read
  | .real (.finite negative m), fuel + 1, rest, _, ends => by
    obtain ⟨n, power, isPower, shape⟩ := exists_numeral_document m
    rw [toList_real, scanned, shape]
    exact scan_numeral atEnd fuel negative n isPower ends
  | .real (.infinite true), fuel + 1, rest, _, _ => rfl
  | .real (.infinite false), fuel + 1, rest, _, _ => rfl
  | .real .undefined, fuel + 1, rest, _, _ => rfl
  | .string value, fuel + 1, rest, _, _ => by
    have read : scan atEnd (fuel + 1) ('"' :: (escapedTail value ++ rest)) =
        (.string (string? atEnd (escapedTail value ++ rest)).1,
          (string? atEnd (escapedTail value ++ rest)).2) := rfl
    rw [Json.compact, toList_quote, List.cons_append, read, string?_escapedTail, scanned]
  | .list items, fuel + 1, rest, enough, _ => by
    have read (text : List Char) : scan atEnd (fuel + 1) ('[' :: text) =
        let (items, ending) := scanItems atEnd fuel true text
        match ending with
        | .ok rest => (.list items none, .ok rest)
        | .error fault => (.list items (some fault), .error fault) := rfl
    have text : (Json.list items).compact.toList =
        '[' :: ((Json.compactItems items).toList ++ [']']) := by
      rw [Json.compact]
      simp
    rw [text, List.length_cons] at enough
    have inside := scanItems_first atEnd items fuel rest (by omega)
    rw [text, List.cons_append, read, inside, scanned]
  | .object members, fuel + 1, rest, enough, _ => by
    have read (text : List Char) : scan atEnd (fuel + 1) ('\x7b' :: text) =
        let (members, ending) := scanMembers atEnd fuel true text
        match ending with
        | .ok rest => (.object members none, .ok rest)
        | .error fault => (.object members (some fault), .error fault) := rfl
    have text : (Json.object members).compact.toList =
        '\x7b' :: ((Json.compactMembers members).toList ++ ['\x7d']) := by
      rw [Json.compact]
      simp
    rw [text, List.length_cons] at enough
    have inside := scanMembers_first atEnd members fuel rest (by omega)
    rw [text, List.cons_append, read, inside, scanned]

theorem scanItems_first (atEnd : Fault) : ∀ (items : List Json) (fuel : Nat) (rest : List Char),
    2 * ((Json.compactItems items).toList ++ [']']).length ≤ fuel →
      scanItems atEnd fuel true ((Json.compactItems items).toList ++ [']'] ++ rest) =
        (scannedItems items, .ok rest)
  | items, 0, rest, enough => by simp at enough
  | [], fuel + 1, rest, _ => rfl
  | item :: items, fuel + 1, rest, enough => by
    rw [toList_compactItems, List.length_append] at enough
    obtain ⟨c, more, shape, starts⟩ := compact_starts item
    have positive : 0 < item.compact.toList.length := by rw [shape]; exact Nat.succ_pos _
    have behind : 0 < (itemsTail items).length := by cases items <;> exact Nat.succ_pos _
    have first := scan_compact atEnd item fuel (itemsTail items ++ rest) (by omega)
      (endsNumeral_itemsTail items rest)
    have others := scanItems_itemsTail atEnd items fuel rest (by omega)
    have step := scanItems_item atEnd fuel true starts (more ++ (itemsTail items ++ rest))
    rw [← List.cons_append, ← shape, first] at step
    dsimp only at step
    rw [others] at step
    rw [toList_compactItems, List.append_assoc]
    exact step

theorem scanItems_itemsTail (atEnd : Fault) : ∀ (items : List Json) (fuel : Nat)
    (rest : List Char), 2 * (itemsTail items).length ≤ fuel →
      scanItems atEnd fuel false (itemsTail items ++ rest) = (scannedItems items, .ok rest)
  | items, 0, rest, enough => by
    cases items <;> simp [itemsTail] at enough
  | [], fuel + 1, rest, _ => rfl
  | item :: items, fuel + 1, rest, enough => by
    rw [itemsTail, List.length_cons, List.length_append] at enough
    obtain ⟨c, more, shape, starts⟩ := compact_starts item
    have first := scan_compact atEnd item fuel (itemsTail items ++ rest) (by omega)
      (endsNumeral_itemsTail items rest)
    have others := scanItems_itemsTail atEnd items fuel rest (by omega)
    have step := scanItems_item atEnd fuel false starts (more ++ (itemsTail items ++ rest))
    rw [← List.cons_append, ← shape, first] at step
    dsimp only at step
    rw [others] at step
    rw [itemsTail, List.cons_append, List.append_assoc]
    exact step

theorem scanMembers_first (atEnd : Fault) : ∀ (members : List (String × Json)) (fuel : Nat)
    (rest : List Char), 2 * ((Json.compactMembers members).toList ++ ['\x7d']).length ≤ fuel →
      scanMembers atEnd fuel true ((Json.compactMembers members).toList ++ ['\x7d'] ++ rest) =
        (scannedMembers members, .ok rest)
  | members, 0, rest, enough => by simp at enough
  | [], fuel + 1, rest, _ => rfl
  | (key, value) :: members, fuel + 1, rest, enough => by
    rw [toList_compactMembers, List.length_append, length_memberText] at enough
    have read := scan_compact atEnd value fuel (membersTail members ++ rest) (by omega)
      (endsNumeral_membersTail members rest)
    have others := scanMembers_membersTail atEnd members fuel rest (by omega)
    have step := scanMembers_member atEnd fuel true key
      (value.compact.toList ++ (membersTail members ++ rest))
    rw [read] at step
    dsimp only at step
    rw [others] at step
    have shape : (Json.compactMembers ((key, value) :: members)).toList ++ ['\x7d'] ++ rest =
        (if true then [] else [',']) ++ '"' :: (escapedTail key ++ ':' ::
          (value.compact.toList ++ (membersTail members ++ rest))) := by
      rw [toList_compactMembers]
      simp [memberText]
    rw [shape]
    exact step

theorem scanMembers_membersTail (atEnd : Fault) : ∀ (members : List (String × Json)) (fuel : Nat)
    (rest : List Char), 2 * (membersTail members).length ≤ fuel →
      scanMembers atEnd fuel false (membersTail members ++ rest) =
        (scannedMembers members, .ok rest)
  | members, 0, rest, enough => by
    cases members <;> simp [membersTail] at enough
  | [], fuel + 1, rest, _ => rfl
  | (key, value) :: members, fuel + 1, rest, enough => by
    rw [membersTail, List.length_cons, List.length_append, length_memberText] at enough
    have read := scan_compact atEnd value fuel (membersTail members ++ rest) (by omega)
      (endsNumeral_membersTail members rest)
    have others := scanMembers_membersTail atEnd members fuel rest (by omega)
    have step := scanMembers_member atEnd fuel false key
      (value.compact.toList ++ (membersTail members ++ rest))
    rw [read] at step
    dsimp only at step
    rw [others] at step
    have shape : membersTail ((key, value) :: members) ++ rest = (if false then [] else [',']) ++
        '"' :: (escapedTail key ++ ':' ::
          (value.compact.toList ++ (membersTail members ++ rest))) := by
      simp [membersTail, memberText]
    rw [shape]
    exact step

end

theorem ofText_compact (atEnd : Fault) (json : Json) :
    ofText json.compact.toList atEnd = (scanned json, .ok []) := by
  have read := scan_compact atEnd json (2 * json.compact.toList.length + 2) [] (by omega)
    (fun _ none_ => nomatch none_)
  rw [List.append_nil] at read
  exact read

end Doc

theorem Reader.ofWholeText_compact {α : Type} (read : Reader α) (json : Json) :
    Reader.ofWholeText read json.compact = read (.stream Mode.depthLimit) (scanned json) := by
  unfold Reader.ofWholeText
  rw [Doc.ofText_compact]
  dsimp only
  cases read (.stream Mode.depthLimit) (scanned json) <;> rfl

end DesignLink.Wire
