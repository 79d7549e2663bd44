import DesignLink.Proofs.Script.Values
import DesignLink.Mapping.Printer

/-!
Object literals in their text: keys as names or quoted texts, members with a colon, and the ways in
which the literals are laid out.
-/

namespace DesignLink.Script

open DesignLink.Script.Parser DesignLink.Script.Grammar

/-- The tokens that are keys of members as they stand, with the keys that they are. -/
inductive KeyToken : Token → (Span → Key) → Prop where
  | word (name : String) : KeyToken (.word name false) fun span => .name span name
  | string (text : String) : KeyToken (.string text) fun span => .expression (.string span text)

def atKey (token : Token) (newline : Bool) (offset : Nat) (here : List Char) (stop : Nat)
    (text : List Char) (previous waiting : Nat) : State :=
  ⟨⟨token, newline, offset, here, stop, ':' :: text⟩, previous, waiting⟩

def memberMarks : List String := ["...", "*", "\x7d"]

section Member

variable {token : Token} {make : Span → Key} {newline : Bool} {offset stop previous waiting : Nat}
  {here text : List Char} {r : Rules} {c : Context}

theorem eatModifier_of_key (isKey : KeyToken token make) (modifier : String) (sameLine : Bool) :
    eatModifier modifier sameLine (atKey token newline offset here stop text previous waiting) =
      some (false, atKey token newline offset here stop text previous waiting) := by
  have noModifier : modifies sameLine
      (atKey token newline offset here stop text previous waiting) =
      some (false, atKey token newline offset here stop text previous waiting) := by
    cases isKey <;> cases sameLine <;> rfl
  simp only [eatModifier, bind_apply, at?, noModifier, Option.bind_some, Bool.and_false,
    Bool.false_eq_true, if_false, pure_apply]

theorem objectMember_of_value (isKey : KeyToken token make) {e : Expr} {place : Place}
    (notAt : NotAt memberMarks (atKey token newline offset here stop text previous waiting))
    (read : r.value c (.behind ⟨stop + 1, text⟩ waiting) = some (e, .behind place waiting)) :
    objectMember r c (atKey token newline offset here stop text previous waiting) =
      some (.field ⟨offset, place.offset⟩ (make ⟨offset, stop⟩) false e,
        .behind place waiting) := by
  have noSpread := notAt.eat (by decide : "..." ∈ memberMarks)
  have noStar := notAt.eat (by decide : "*" ∈ memberMarks)
  have key : memberKey r c (atKey token newline offset here stop text previous waiting) =
      some ((make ⟨offset, stop⟩, false), .facing stop ⟨stop, ':' :: text⟩ waiting) := by
    cases isKey <;> rfl
  have short : ∃ name?, nameHere? c (atKey token newline offset here stop text previous waiting) =
      some (name?, atKey token newline offset here stop text previous waiting) := by
    cases isKey <;> exact ⟨_, rfl⟩
  obtain ⟨name?, short⟩ := short
  have noCall : atAny ["(", "<"] (.facing stop ⟨stop, ':' :: text⟩ waiting) =
      some (false, .facing stop ⟨stop, ':' :: text⟩ waiting) := rfl
  have colon : eat ":" (.facing stop ⟨stop, ':' :: text⟩ waiting) =
      some (true, .behind ⟨stop + 1, text⟩ waiting) := rfl
  have required : require true (.facing stop ⟨stop, ':' :: text⟩ waiting) =
      some ((), .facing stop ⟨stop, ':' :: text⟩ waiting) := rfl
  simp only [objectMember, bind_apply, Parser.start, noSpread, eatModifier_of_key isKey, noStar,
    short, key, noCall, colon, read, required, Option.bind_some, Bool.false_eq_true, if_false,
    if_true, Bool.or_self, Bool.not_false]
  rfl

end Member

/-- A text is read as a key wherever it stands before a colon, and the key has a property. -/
structure ReadsKey (written : List Char) (K : Key → Prop) : Prop where
  starts : ∀ rest, StartsToken (written ++ rest)
  read : ∃ token make, KeyToken token make ∧ (∀ span, K (make span)) ∧
    (∀ mark ∈ memberMarks, plainText token ≠ some mark) ∧
    ∀ newline previous offset waiting text,
      State.at newline previous ⟨offset, written ++ ':' :: text⟩ waiting =
        atKey token newline offset (written ++ ':' :: text) (offset + Text.byteSize written) text
          previous waiting

theorem ne_of_isIdentifier {name mark : String} (isName : Text.isIdentifier name = true)
    (isMark : Text.isIdentifier mark = false) : name ≠ mark := by
  rintro rfl
  rw [isName] at isMark
  cases isMark

theorem startsToken_of_isIdentifier {name : String} (isName : Text.isIdentifier name = true)
    (rest : List Char) : StartsToken (name.toList ++ rest) := by
  obtain ⟨c, more, shape, starts, _⟩ := (isIdentifier_iff name).mp isName
  rw [shape]
  exact startsToken_of_startsName starts _

theorem readsKey_name {name : String} (isName : Text.isIdentifier name = true) :
    ReadsKey name.toList fun key => ∃ span, key = .name span name where
  starts := startsToken_of_isIdentifier isName
  read := by
    refine ⟨_, _, .word name, fun span => ⟨span, rfl⟩, ?_, ?_⟩
    · intro mark member same
      have noName : ∀ mark ∈ memberMarks, Text.isIdentifier mark = false := by decide
      exact ne_of_isIdentifier isName (noName mark member) (Option.some.inj same)
    · intro newline previous offset waiting text
      have ends : EndsName (':' :: text) := by
        rintro c ⟨⟩
        decide
      rw [State.at, Lexeme.next_name isName ends]
      rfl

theorem readsKey_quoted (text : String) :
    ReadsKey (quotedChars '"' text) fun key => ∃ span, key = .expression (.string span text) where
  starts rest := fun _ _ => rfl
  read := by
    refine ⟨_, _, .string text, fun span => ⟨span, rfl⟩, ?_, ?_⟩
    · rintro mark _ ⟨⟩
    · intro newline previous offset waiting rest
      rw [State.at, Lexeme.next_quoted (.inl rfl)]
      rfl

/-- A key that is a text, as a name or as a string. -/
inductive IsKey (text : String) : Key → Prop where
  | name (span : Span) : IsKey text (.name span text)
  | string (span : Span) : IsKey text (.expression (.string span text))

theorem ReadsKey.imp {written : List Char} {K K' : Key → Prop} (reads : ReadsKey written K)
    (weaker : ∀ key, K key → K' key) : ReadsKey written K' where
  starts := reads.starts
  read := by
    obtain ⟨token, make, isKey, keys, others⟩ := reads.read
    exact ⟨token, make, isKey, fun span => weaker _ (keys span), others⟩

theorem readsKey_declared (text : String) :
    ReadsKey (declaredKey text).toList (IsKey text) := by
  unfold declaredKey
  split
  case isTrue isName =>
    apply (readsKey_name isName).imp
    rintro _ ⟨span, rfl⟩
    exact .name span
  case isFalse =>
    rw [toList_quoted]
    apply (readsKey_quoted text).imp
    rintro _ ⟨span, rfl⟩
    exact .string span

theorem Reads.member {written text : List Char} {K : Key → Prop} {Q : Source → Expr → Prop}
    (key : ReadsKey written K) (value : Reads text Q) (newline : Bool) {depth : Nat}
    (enough : 8 * text.length ≤ depth) :
    ReadsPart (objectMember (rules depth) .module) "\x7d" newline
      (written ++ ':' :: ' ' :: text) fun source member => ∃ span key e,
        member = .field span key false e ∧ K key ∧ Q source e where
  starts rest := by
    rw [List.append_assoc]
    exact key.starts _
  opened previous offset waiting rest _ := by
    obtain ⟨token, make, isKey, _, marks, state⟩ := key.read
    rw [List.append_assoc, List.cons_append, state]
    have notAt : NotAt memberMarks (atKey token newline offset
        (written ++ ':' :: (' ' :: text ++ rest)) (offset + Text.byteSize written)
        (' ' :: text ++ rest) previous waiting) := marks
    exact notAt.at? (by decide)
  read previous offset waiting rest closes := by
    obtain ⟨token, make, isKey, keys, marks, state⟩ := key.read
    rw [List.append_assoc, List.cons_append, state]
    obtain ⟨e, read, meaning⟩ := value.read depth (offset + Text.byteSize written + 1)
      (offset + Text.byteSize written + 1 + 1) waiting rest enough closes
    have size : offset + Text.byteSize written + 1 + 1 + Text.byteSize text =
        offset + Text.byteSize (written ++ ':' :: ' ' :: text) := by
      simp only [Text.byteSize_append, Text.byteSize_cons, show (':' : Char).utf8Size = 1 from rfl,
        show (' ' : Char).utf8Size = 1 from rfl]
      omega
    rw [← State.behind_blank (value.starts rest), size] at read
    refine ⟨_, objectMember_of_value isKey marks read, ?_⟩
    intro source goesOn
    refine ⟨_, _, e, rfl, keys _, meaning source ?_⟩
    have later := goesOn.behind.behind_cons.behind_cons
    exact later

/-! Object literals. -/

theorem listTail_brace : ListTail "\x7d" ['\x7d'] where
  closes rest := .brace rest
  leads _ _ _ := ⟨_, .closed rfl rfl, rfl⟩

theorem listTail_spacedBrace : ListTail "\x7d" [' ', '\x7d'] where
  closes rest := .spacedBrace rest
  leads _ _ _ := ⟨_, .closed rfl rfl, rfl⟩

theorem listTail_commaBrace {gap : List Char} (isGap : IsGap gap) :
    ListTail "\x7d" (',' :: (gap ++ ['\x7d'])) where
  closes rest := .comma _
  leads offset waiting rest := by
    have comma : eat "," (.behind ⟨offset, ',' :: (gap ++ '\x7d' :: rest)⟩ waiting) =
        some (true, .behind ⟨offset + 1, gap ++ '\x7d' :: rest⟩ waiting) := rfl
    have starts : StartsToken ('\x7d' :: rest) := fun _ _ => rfl
    rw [State.behind_gap isGap starts] at comma
    have size : offset + Text.byteSize (',' :: (gap ++ ['\x7d'])) =
        offset + 1 + Text.byteSize gap + 1 := by
      simp only [Text.byteSize_append, Text.byteSize_cons, Text.byteSize_nil,
        show (',' : Char).utf8Size = 1 from rfl, show ('\x7d' : Char).utf8Size = 1 from rfl]
      omega
    rw [size, List.cons_append, List.append_assoc, List.singleton_append]
    exact ⟨_, .comma comma rfl, rfl⟩

theorem startsOperand_brace : StartsOperand (.mark "\x7b") := by decide

theorem reads_emptyObject {gap : List Char} (isGap : IsGap gap) :
    Reads ('\x7b' :: (gap ++ ['\x7d'])) fun _ e => ∃ span, e = .object span [] := by
  apply reads_of_primary
  case starts => exact fun _ _ _ => rfl
  case opens => exact fun _ _ _ => startsOperand_brace
  case nonempty => exact List.cons_ne_nil _ _
  case read =>
    intro depth previous offset waiting rest enough closes
    rw [List.length_cons] at enough
    obtain ⟨depth, rfl⟩ : ∃ less, depth = less + 1 := ⟨depth - 1, by omega⟩
    have starts : StartsToken ('\x7d' :: rest) := fun _ _ => rfl
    have list : listUntil (rules (depth + 1)).bound "\x7d"
        (objectMember (rules (depth + 1)) Context.module.withIn)
        (.behind ⟨offset + 1, gap ++ '\x7d' :: rest⟩ waiting) =
        some ([], .behind ⟨offset + 1, gap ++ '\x7d' :: rest⟩ waiting) := by
      rw [State.behind_gap isGap starts]
      rfl
    have closing : expect "\x7d" (.behind ⟨offset + 1, gap ++ '\x7d' :: rest⟩ waiting) =
        some ((), .behind ⟨offset + Text.byteSize ('\x7b' :: (gap ++ ['\x7d'])), rest⟩
          waiting) := by
      have size : offset + Text.byteSize ('\x7b' :: (gap ++ ['\x7d'])) =
          offset + 1 + Text.byteSize gap + 1 := by
        simp only [Text.byteSize_append, Text.byteSize_cons, Text.byteSize_nil,
          show ('\x7b' : Char).utf8Size = 1 from rfl, show ('\x7d' : Char).utf8Size = 1 from rfl]
        omega
      rw [State.behind_gap isGap starts, size]
      rfl
    have read := primary_of_members (Nat.succ_pos depth) list closing previous
    rw [List.cons_append, List.append_assoc, List.singleton_append]
    exact ⟨_, read, fun _ _ => ⟨_, rfl⟩⟩

/-- Members that can be read one by one are read as an object literal, however it is laid out. -/
theorem reads_object {ι : Type} {gap tail : List Char} (isGap : IsGap gap)
    (ends : ListTail "\x7d" tail) (positive : 1 ≤ tail.length) (text : ι → List Char)
    (M : Source → Member → ι → Prop) {xs : List ι} (nonempty : xs ≠ [])
    (each : ∀ x ∈ xs, ∀ depth, 8 * (text x).length ≤ depth →
      ReadsPart (objectMember (rules depth) .module) "\x7d" (gap.contains '\n') (text x)
        (M · · x)) :
    Reads ('\x7b' :: (gap ++ joined gap tail (xs.map text))) fun source e => ∃ span members,
      e = .object span members ∧ List.Forall₂ (M source) members xs := by
  apply reads_of_primary
  case starts => exact fun _ _ _ => rfl
  case opens => exact fun _ _ _ => startsOperand_brace
  case nonempty => exact List.cons_ne_nil _ _
  case read =>
    intro depth previous offset waiting rest enough closes
    have long := length_le_joined gap positive text xs
    rw [List.length_cons, List.length_append] at enough
    have members (x : ι) (member : x ∈ xs) := each x member depth (by
      have shorter := length_le_of_mem gap tail text member
      omega)
    obtain ⟨found, s, list, closing, meaning⟩ := listUntil_joined isGap isGap rfl ends text M
      nonempty members (by rw [bound_rules]; omega : xs.length < (rules depth).bound)
      (offset + 1) waiting rest
    have size : offset + 1 + Text.byteSize (gap ++ joined gap tail (xs.map text)) =
        offset + Text.byteSize ('\x7b' :: (gap ++ joined gap tail (xs.map text))) :=
      Nat.add_assoc _ _ _
    rw [size] at closing
    have read := primary_of_members (r := rules depth) (c := .module) (by omega : 0 < depth) list
      closing previous
    refine ⟨_, read, ?_⟩
    intro source goesOn
    exact ⟨_, found, rfl, meaning source goesOn.behind_cons⟩

end DesignLink.Script
