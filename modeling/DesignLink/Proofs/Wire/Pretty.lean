import DesignLink.Proofs.Wire.Scanning

/-!
Documents written with line breaks and indentation are scanned as their values: a scan sees through
the white space in front of what it looks for.
-/

namespace DesignLink.Wire.Doc

/-! White space. -/

def IsSpace (c : Char) : Prop := c = ' ' ∨ c = '\n' ∨ c = '\t' ∨ c = '\r'

theorem skipSpace_append {space : List Char} (isSpace : ∀ c ∈ space, IsSpace c)
    (text : List Char) : skipSpace (space ++ text) = skipSpace text := by
  induction space with
  | nil => rfl
  | cons c space ih =>
    have first : c = ' ' ∨ c = '\n' ∨ c = '\t' ∨ c = '\r' := isSpace c List.mem_cons_self
    rw [List.cons_append, skipSpace, if_pos first]
    exact ih fun d member => isSpace d (List.mem_cons_of_mem c member)

/-! What stands behind the marks of a document. -/

section Marks

variable (atEnd : Fault) (fuel : Nat) (text : List Char)

theorem scanMembers_comma : scanMembers atEnd (fuel + 1) false (',' :: text) =
    match skipSpace text with
    | [] => ([], .error .endInValue)
    | '"' :: rest => scanMembers atEnd (fuel + 1) true ('"' :: rest)
    | '\x7d' :: _ => ([], .error .trailingComma)
    | _ => ([], .error .keyNotString) := rfl

theorem scan_bracket : scan atEnd (fuel + 1) ('[' :: text) =
    let (items, ending) := scanItems atEnd fuel true text
    match ending with
    | .ok rest => (.list items none, .ok rest)
    | .error fault => (.list items (some fault), .error fault) := rfl

theorem scan_brace : scan atEnd (fuel + 1) ('\x7b' :: text) =
    let (members, ending) := scanMembers atEnd fuel true text
    match ending with
    | .ok rest => (.object members none, .ok rest)
    | .error fault => (.object members (some fault), .error fault) := rfl

end Marks

section Spaces

variable {space : List Char} (isSpace : ∀ c ∈ space, IsSpace c) (atEnd : Fault)

include isSpace

theorem scan_append (fuel : Nat) (text : List Char) :
    scan atEnd fuel (space ++ text) = scan atEnd fuel text := by
  cases fuel with
  | zero => rfl
  | succ fuel => rw [scan, scan, skipSpace_append isSpace]

theorem scanItems_append (fuel : Nat) (first : Bool) (text : List Char) :
    scanItems atEnd fuel first (space ++ text) = scanItems atEnd fuel first text := by
  cases fuel with
  | zero => rfl
  | succ fuel => rw [scanItems, scanItems, skipSpace_append isSpace]

theorem scanMembers_append (fuel : Nat) (first : Bool) (text : List Char) :
    scanMembers atEnd fuel first (space ++ text) = scanMembers atEnd fuel first text := by
  cases fuel with
  | zero => rfl
  | succ fuel => rw [scanMembers, scanMembers, skipSpace_append isSpace]

theorem scanItems_comma_append (fuel : Nat) (text : List Char) :
    scanItems atEnd fuel false (',' :: (space ++ text)) =
      scanItems atEnd fuel false (',' :: text) := by
  cases fuel with
  | zero => rfl
  | succ fuel => rw [scanItems_comma, scanItems_comma, skipSpace_append isSpace]

theorem scanMembers_comma_append (fuel : Nat) (text : List Char) :
    scanMembers atEnd fuel false (',' :: (space ++ text)) =
      scanMembers atEnd fuel false (',' :: text) := by
  cases fuel with
  | zero => rfl
  | succ fuel => rw [scanMembers_comma, scanMembers_comma, skipSpace_append isSpace]

end Spaces

/-! Line breaks. -/

def breakText (level : Nat) : List Char := '\n' :: List.replicate (2 * level) ' '

theorem toList_lineBreak (level : Nat) : (Json.lineBreak level).toList = breakText level := by
  simp [Json.lineBreak, breakText]

theorem isSpace_breakText (level : Nat) : ∀ c ∈ breakText level, IsSpace c := by
  intro c member
  rcases List.mem_cons.mp member with rfl | indent
  · exact .inr (.inl rfl)
  · exact .inl (List.eq_of_mem_replicate indent)

def prettyItemsTail (level : Nat) : List Json → List Char
  | [] => breakText level ++ [']']
  | item :: rest =>
    ',' :: (breakText (level + 1) ++ ((item.pretty (level + 1)).toList ++
      prettyItemsTail level rest))

theorem toList_prettyItems (level : Nat) : ∀ items : List Json,
    (Json.prettyItems (level + 1) items ++ Json.lineBreak level ++ "]").toList =
      prettyItemsTail level items
  | [] => by simp [Json.prettyItems, prettyItemsTail, toList_lineBreak]
  | item :: rest => by
    have later := toList_prettyItems level rest
    simp only [String.toList_append] at later
    rw [Json.prettyItems, prettyItemsTail, ← later]
    simp [toList_lineBreak]

def prettyMember (level : Nat) (member : String × Json) : List Char :=
  '"' :: (escapedTail member.1 ++ ':' :: ' ' :: (member.2.pretty level).toList)

def prettyMembersTail (level : Nat) : List (String × Json) → List Char
  | [] => breakText level ++ ['\x7d']
  | member :: rest =>
    ',' :: (breakText (level + 1) ++ (prettyMember (level + 1) member ++
      prettyMembersTail level rest))

theorem toList_prettyMembers (level : Nat) : ∀ members : List (String × Json),
    (Json.prettyMembers (level + 1) members ++ Json.lineBreak level ++ "\x7d").toList =
      prettyMembersTail level members
  | [] => by simp [Json.prettyMembers, prettyMembersTail, toList_lineBreak]
  | (key, value) :: rest => by
    have later := toList_prettyMembers level rest
    simp only [String.toList_append] at later
    rw [Json.prettyMembers, prettyMembersTail, prettyMember, ← later]
    simp [toList_lineBreak, toList_quote]

theorem toList_pretty_list (level : Nat) (item : Json) (rest : List Json) :
    ((Json.list (item :: rest)).pretty level).toList =
      '[' :: (breakText (level + 1) ++ ((item.pretty (level + 1)).toList ++
        prettyItemsTail level rest)) := by
  rw [Json.pretty, ← toList_prettyItems]
  simp [toList_lineBreak]

theorem toList_pretty_object (level : Nat) (member : String × Json)
    (rest : List (String × Json)) :
    ((Json.object (member :: rest)).pretty level).toList =
      '\x7b' :: (breakText (level + 1) ++ (prettyMember (level + 1) member ++
        prettyMembersTail level rest)) := by
  rw [Json.pretty, ← toList_prettyMembers]
  simp [toList_lineBreak, toList_quote, prettyMember]

theorem endsNumeral_prettyItemsTail (level : Nat) (items : List Json) (rest : List Char) :
    EndsNumeral (prettyItemsTail level items ++ rest) := by
  cases items with
  | nil => rintro c ⟨⟩; decide
  | cons item items => rintro c ⟨⟩; decide

theorem endsNumeral_prettyMembersTail (level : Nat) (members : List (String × Json))
    (rest : List Char) : EndsNumeral (prettyMembersTail level members ++ rest) := by
  cases members with
  | nil => rintro c ⟨⟩; decide
  | cons member members => rintro c ⟨⟩; decide

/-- Whether a value is a list or an object that holds something. -/
def hasParts : Json → Bool
  | .list (_ :: _) | .object (_ :: _) => true
  | _ => false

theorem pretty_eq_compact (level : Nat) {json : Json} (noParts : hasParts json = false) :
    json.pretty level = json.compact := by
  cases json with
  | list items =>
    cases items with
    | nil => rw [Json.pretty, Json.compact, Json.compactItems]; rfl
    | cons item rest => cases noParts
  | object members =>
    cases members with
    | nil => rw [Json.pretty, Json.compact, Json.compactMembers]; rfl
    | cons member rest => cases noParts
  | _ => rw [Json.pretty, Json.compact]

theorem pretty_starts (level : Nat) (json : Json) :
    ∃ c more, (json.pretty level).toList = c :: more ∧ StartsValue c := by
  have leaf (noParts : hasParts json = false) : ∃ c more, (json.pretty level).toList = c :: more ∧ StartsValue c := by
    rw [pretty_eq_compact level noParts]
    exact compact_starts json
  cases json with
  | list items =>
    cases items with
    | nil => exact leaf rfl
    | cons item rest => exact ⟨'[', _, toList_pretty_list level item rest, by decide, by decide⟩
  | object members =>
    cases members with
    | nil => exact leaf rfl
    | cons member rest =>
      exact ⟨'\x7b', _, toList_pretty_object level member rest, by decide, by decide⟩
  | _ => exact leaf rfl

section Scans

variable {atEnd : Fault}

/-- The value, written at any level, is scanned as itself. -/
def Scans (atEnd : Fault) (json : Json) : Prop :=
  ∀ (level fuel : Nat) (rest : List Char), 2 * (json.pretty level).toList.length ≤ fuel →
    EndsNumeral rest →
      scan atEnd fuel ((json.pretty level).toList ++ rest) = (scanned json, .ok rest)

def ScansItems (atEnd : Fault) (items : List Json) : Prop :=
  ∀ (level fuel : Nat) (rest : List Char), 2 * (prettyItemsTail level items).length ≤ fuel →
    scanItems atEnd fuel false (prettyItemsTail level items ++ rest) =
      (scannedItems items, .ok rest)

def ScansMembers (atEnd : Fault) (members : List (String × Json)) : Prop :=
  ∀ (level fuel : Nat) (rest : List Char), 2 * (prettyMembersTail level members).length ≤ fuel →
    scanMembers atEnd fuel false (prettyMembersTail level members ++ rest) =
      (scannedMembers members, .ok rest)

theorem scans_of_noParts {json : Json} (noParts : hasParts json = false) : Scans atEnd json := by
  intro level fuel rest enough ends
  rw [pretty_eq_compact level noParts] at enough ⊢
  exact scan_compact atEnd json fuel rest enough ends

theorem length_breakText_pos (level : Nat) : 0 < (breakText level).length := Nat.succ_pos _

theorem scanItems_pretty {item : Json} {items : List Json} (scans : Scans atEnd item)
    (others : ScansItems atEnd items) (level fuel : Nat) (first : Bool) (rest : List Char)
    (enough : 2 * ((item.pretty (level + 1)).toList.length +
      (prettyItemsTail level items).length) ≤ fuel) :
    scanItems atEnd (fuel + 1) first ((if first then [] else [',']) ++
      ((item.pretty (level + 1)).toList ++ (prettyItemsTail level items ++ rest))) =
      (scannedItems (item :: items), .ok rest) := by
  obtain ⟨c, more, shape, starts⟩ := pretty_starts (level + 1) item
  have read := scans (level + 1) fuel (prettyItemsTail level items ++ rest) (by omega)
    (endsNumeral_prettyItemsTail level items rest)
  have step := scanItems_item atEnd fuel first starts
    (more ++ (prettyItemsTail level items ++ rest))
  rw [← List.cons_append, ← shape, read] at step
  dsimp only at step
  rw [others level fuel rest (by omega)] at step
  rw [step, scannedItems]

theorem scanMembers_pretty (key : String) {value : Json} {members : List (String × Json)}
    (scans : Scans atEnd value) (others : ScansMembers atEnd members) (level fuel : Nat)
    (first : Bool) (rest : List Char)
    (enough : 2 * ((prettyMember (level + 1) (key, value)).length +
      (prettyMembersTail level members).length) ≤ fuel) :
    scanMembers atEnd (fuel + 1) first ((if first then [] else [',']) ++
      (prettyMember (level + 1) (key, value) ++ (prettyMembersTail level members ++ rest))) =
      (scannedMembers ((key, value) :: members), .ok rest) := by
  have long : (value.pretty (level + 1)).toList.length ≤
      (prettyMember (level + 1) (key, value)).length := by
    simp only [prettyMember, List.length_cons, List.length_append]
    omega
  have isSpace : ∀ c ∈ [' '], IsSpace c := fun c member => .inl (List.mem_singleton.mp member)
  have read := scans (level + 1) fuel (prettyMembersTail level members ++ rest) (by omega)
    (endsNumeral_prettyMembersTail level members rest)
  have step := scanMembers_member atEnd fuel first key
    ([' '] ++ ((value.pretty (level + 1)).toList ++ (prettyMembersTail level members ++ rest)))
  rw [scan_append isSpace, read] at step
  dsimp only at step
  rw [others level fuel rest (by omega)] at step
  have shape : prettyMember (level + 1) (key, value) ++ (prettyMembersTail level members ++ rest) =
      '"' :: (escapedTail key ++ ':' :: ([' '] ++ ((value.pretty (level + 1)).toList ++
        (prettyMembersTail level members ++ rest)))) := by
    simp [prettyMember]
  rw [shape, step, scannedMembers]

theorem scans_list {item : Json} {items : List Json} (scans : Scans atEnd item)
    (others : ScansItems atEnd items) : Scans atEnd (.list (item :: items)) := by
  intro level fuel rest enough ends
  have broken := length_breakText_pos (level + 1)
  rw [toList_pretty_list, List.length_cons, List.length_append, List.length_append] at enough
  obtain ⟨fuel, rfl⟩ : ∃ smaller, fuel = smaller + 2 := ⟨fuel - 2, by omega⟩
  have inside := scanItems_pretty scans others level fuel true rest (by omega)
  rw [if_pos rfl, List.nil_append] at inside
  rw [toList_pretty_list, List.cons_append, scan_bracket, List.append_assoc,
    scanItems_append (isSpace_breakText (level + 1)), List.append_assoc, inside, scanned]

theorem scans_object {key : String} {value : Json} {members : List (String × Json)}
    (scans : Scans atEnd value) (others : ScansMembers atEnd members) :
    Scans atEnd (.object ((key, value) :: members)) := by
  intro level fuel rest enough ends
  have broken := length_breakText_pos (level + 1)
  rw [toList_pretty_object, List.length_cons, List.length_append, List.length_append] at enough
  obtain ⟨fuel, rfl⟩ : ∃ smaller, fuel = smaller + 2 := ⟨fuel - 2, by omega⟩
  have inside := scanMembers_pretty key scans others level fuel true rest (by omega)
  rw [if_pos rfl, List.nil_append] at inside
  rw [toList_pretty_object, List.cons_append, scan_brace, List.append_assoc,
    scanMembers_append (isSpace_breakText (level + 1)), List.append_assoc, inside, scanned]

theorem scansItems_nil : ScansItems atEnd [] := by
  intro level fuel rest enough
  have broken := length_breakText_pos level
  rw [prettyItemsTail, List.length_append] at enough
  obtain ⟨fuel, rfl⟩ : ∃ smaller, fuel = smaller + 1 := ⟨fuel - 1, by omega⟩
  rw [prettyItemsTail, List.append_assoc, scanItems_append (isSpace_breakText level)]
  rfl

theorem scansItems_cons {item : Json} {items : List Json} (scans : Scans atEnd item)
    (others : ScansItems atEnd items) : ScansItems atEnd (item :: items) := by
  intro level fuel rest enough
  rw [prettyItemsTail, List.length_cons, List.length_append, List.length_append] at enough
  obtain ⟨fuel, rfl⟩ : ∃ smaller, fuel = smaller + 1 := ⟨fuel - 1, by omega⟩
  have inside := scanItems_pretty scans others level fuel false rest (by omega)
  rw [if_neg Bool.false_ne_true, List.singleton_append] at inside
  rw [prettyItemsTail, List.cons_append, List.append_assoc,
    scanItems_comma_append (isSpace_breakText (level + 1)), List.append_assoc, inside]

theorem scansMembers_nil : ScansMembers atEnd [] := by
  intro level fuel rest enough
  have broken := length_breakText_pos level
  rw [prettyMembersTail, List.length_append] at enough
  obtain ⟨fuel, rfl⟩ : ∃ smaller, fuel = smaller + 1 := ⟨fuel - 1, by omega⟩
  rw [prettyMembersTail, List.append_assoc, scanMembers_append (isSpace_breakText level)]
  rfl

theorem scansMembers_cons {key : String} {value : Json} {members : List (String × Json)}
    (scans : Scans atEnd value) (others : ScansMembers atEnd members) :
    ScansMembers atEnd ((key, value) :: members) := by
  intro level fuel rest enough
  rw [prettyMembersTail, List.length_cons, List.length_append, List.length_append] at enough
  obtain ⟨fuel, rfl⟩ : ∃ smaller, fuel = smaller + 1 := ⟨fuel - 1, by omega⟩
  have inside := scanMembers_pretty key scans others level fuel false rest (by omega)
  rw [if_neg Bool.false_ne_true, List.singleton_append] at inside
  rw [prettyMembersTail, List.cons_append, List.append_assoc,
    scanMembers_comma_append (isSpace_breakText (level + 1)), List.append_assoc, inside]

end Scans

mutual

theorem scans (atEnd : Fault) : ∀ json : Json, Scans atEnd json
  | .null => scans_of_noParts rfl
  | .boolean _ => scans_of_noParts rfl
  | .integer _ => scans_of_noParts rfl
  | .real _ => scans_of_noParts rfl
  | .string _ => scans_of_noParts rfl
  | .list [] => scans_of_noParts rfl
  | .list (item :: items) => scans_list (scans atEnd item) (scansItems atEnd items)
  | .object [] => scans_of_noParts rfl
  | .object ((_, value) :: members) =>
    scans_object (scans atEnd value) (scansMembers atEnd members)

theorem scansItems (atEnd : Fault) : ∀ items : List Json, ScansItems atEnd items
  | [] => scansItems_nil
  | item :: items => scansItems_cons (scans atEnd item) (scansItems atEnd items)

theorem scansMembers (atEnd : Fault) : ∀ members : List (String × Json),
    ScansMembers atEnd members
  | [] => scansMembers_nil
  | (_, value) :: members => scansMembers_cons (scans atEnd value) (scansMembers atEnd members)

end

/-- A document written with line breaks is scanned as its value, whatever stands behind it on the
next line. -/
theorem ofText_pretty (atEnd : Fault) (json : Json) (rest : List Char) :
    (ofText ((json.pretty 0).toList ++ '\n' :: rest) atEnd).1 = scanned json := by
  have enough : 2 * (json.pretty 0).toList.length ≤
      2 * ((json.pretty 0).toList ++ '\n' :: rest).length + 2 := by
    rw [List.length_append]
    omega
  have read := scans atEnd json 0 _ ('\n' :: rest) enough (by rintro c ⟨⟩; decide)
  rw [ofText, read]

end DesignLink.Wire.Doc
