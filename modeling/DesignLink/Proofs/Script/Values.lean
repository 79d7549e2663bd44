import DesignLink.Proofs.Script.Operands

/-!
Values in their text: what is read for a text wherever it stands, as long as what follows it ends an
expression. Literals are values, and so are arrays, objects and calls of values.
-/

namespace DesignLink.Script

open DesignLink.Script.Parser DesignLink.Script.Grammar

def listMarks : List String := [",", ")", "]", "\x7d", "..."]

/-- A text is read as one value wherever it stands, and the value has a property. -/
structure Reads (text : List Char) (Q : Source → Expr → Prop) : Prop where
  starts : ∀ rest, StartsToken (text ++ rest)
  opens : ∀ previous offset waiting rest, Closes rest →
    NotAt listMarks (.facing previous ⟨offset, text ++ rest⟩ waiting)
  read : ∀ depth previous offset waiting rest, 8 * text.length ≤ depth → Closes rest →
    ∃ e, (rules depth).assignment .module true
        (.facing previous ⟨offset, text ++ rest⟩ waiting) =
        some (e, .behind ⟨offset + Text.byteSize text, rest⟩ waiting) ∧
      ∀ source : Source, source.GoesOn offset (text ++ rest) → Q source e

namespace Reads

variable {text : List Char} {Q Q' : Source → Expr → Prop}

theorem imp (reads : Reads text Q) (weaker : ∀ source e, Q source e → Q' source e) :
    Reads text Q' where
  starts := reads.starts
  opens := reads.opens
  read depth previous offset waiting rest enough closes := by
    obtain ⟨e, read, meaning⟩ := reads.read depth previous offset waiting rest enough closes
    exact ⟨e, read, fun source goesOn => weaker source e (meaning source goesOn)⟩

theorem notAtSpread (reads : Reads text Q) {rest : List Char} (closes : Closes rest)
    (previous offset waiting : Nat) :
    eat "..." (.facing previous ⟨offset, text ++ rest⟩ waiting) =
      some (false, .facing previous ⟨offset, text ++ rest⟩ waiting) :=
  (reads.opens previous offset waiting rest closes).eat (by decide)

theorem argument (reads : Reads text Q) {depth : Nat} (enough : 8 * text.length ≤ depth) :
    ReadsPart (Grammar.argument (rules depth) .module) ")" false text
      fun source item => ∃ e, item = .value e ∧ Q source e where
  starts := reads.starts
  opened previous offset waiting rest closes := by
    rw [← State.facing_eq_at (reads.starts rest)]
    exact (reads.opens previous offset waiting rest closes).at? (by decide)
  read previous offset waiting rest closes := by
    obtain ⟨e, read, meaning⟩ := reads.read depth previous offset waiting rest enough closes
    rw [← State.facing_eq_at (reads.starts rest)]
    refine ⟨.value e, ?_, fun source goesOn => ⟨e, rfl, meaning source goesOn⟩⟩
    simp only [Grammar.argument, bind_apply, Parser.start, reads.notAtSpread closes,
      Option.bind_some, Bool.false_eq_true, if_false, Rules.value, read, pure_apply]

theorem arrayItem (reads : Reads text Q) {depth : Nat} (enough : 8 * text.length ≤ depth) :
    ReadsPart (Grammar.arrayItem (rules depth) .module) "]" false text
      fun source item => ∃ e, item = .value e ∧ Q source e where
  starts := reads.starts
  opened previous offset waiting rest closes := by
    rw [← State.facing_eq_at (reads.starts rest)]
    exact (reads.opens previous offset waiting rest closes).at? (by decide)
  read previous offset waiting rest closes := by
    obtain ⟨e, read, meaning⟩ := reads.read depth previous offset waiting rest enough closes
    rw [← State.facing_eq_at (reads.starts rest)]
    have noHole : at? "," _ = _ := (reads.opens previous offset waiting rest closes).at? (by decide)
    refine ⟨.value e, ?_, fun source goesOn => ⟨e, rfl, meaning source goesOn⟩⟩
    simp only [Grammar.arrayItem, bind_apply, lexeme, noHole, reads.notAtSpread closes,
      Option.bind_some, Bool.false_eq_true, if_false, Rules.value, read, pure_apply]

end Reads

/-- The token starts an operand: it is no operator before one and no mark of a list. -/
def StartsOperand (token : Token) : Prop :=
  token ≠ .privateName ∧ ∀ mark ∈ openers ++ listMarks, plainText token ≠ some mark

instance (token : Token) : Decidable (StartsOperand token) :=
  inferInstanceAs (Decidable (_ ∧ _))

theorem reads_of_operand {text : List Char} {Q : Source → Expr → Prop}
    (starts : ∀ rest, StartsToken (text ++ rest))
    (opens : ∀ offset rest, Closes rest → StartsOperand (Lexeme.next ⟨offset, text ++ rest⟩).token)
    (nonempty : text ≠ [])
    (read : ∀ depth previous offset waiting rest, 8 * text.length ≤ depth + 4 → Closes rest →
      ∃ e, operandRule (rules depth) .module (.facing previous ⟨offset, text ++ rest⟩ waiting) =
          some (e, .behind ⟨offset + Text.byteSize text, rest⟩ waiting) ∧
        ∀ source : Source, source.GoesOn offset (text ++ rest) → Q source e) :
    Reads text Q where
  starts := starts
  opens _ offset _ rest closes mark member :=
    (opens offset rest closes).2 mark (List.mem_append_right _ member)
  read depth previous offset waiting rest enough closes := by
    have long : 0 < text.length := List.length_pos_iff.mpr nonempty
    obtain ⟨depth, rfl⟩ : ∃ less, depth = less + 4 := ⟨depth - 4, by omega⟩
    obtain ⟨e, read, meaning⟩ := read depth previous offset waiting rest enough closes
    have operand := opens offset rest closes
    have value := value_of_operand true rfl
      (fun mark member => operand.2 mark (List.mem_append_left _ member)) operand.1 read
      (closes.stops _ _ _)
    exact ⟨e, value, meaning⟩

theorem reads_of_primary {text : List Char} {Q : Source → Expr → Prop}
    (starts : ∀ rest, StartsToken (text ++ rest))
    (opens : ∀ offset rest, Closes rest → StartsOperand (Lexeme.next ⟨offset, text ++ rest⟩).token)
    (nonempty : text ≠ [])
    (read : ∀ depth previous offset waiting rest, 8 * text.length ≤ depth + 4 → Closes rest →
      ∃ e, primary (rules depth) .module depth
          (.facing previous ⟨offset, text ++ rest⟩ waiting) =
          some (e, .behind ⟨offset + Text.byteSize text, rest⟩ waiting) ∧
        ∀ source : Source, source.GoesOn offset (text ++ rest) → Q source e) :
    Reads text Q := by
  have long : 0 < text.length := List.length_pos_iff.mpr nonempty
  apply reads_of_operand starts opens nonempty
  intro depth previous offset waiting rest enough closes
  obtain ⟨e, read, meaning⟩ := read depth previous offset waiting rest enough closes
  exact ⟨e, operandRule_of_primary (by omega) read (closes.stops _ _ _), meaning⟩

/-! Tokens that are values. -/

theorem reads_quoted {quote : Char} (isQuote : IsQuote quote) (text : String) :
    Reads (quotedChars quote text) fun _ e => ∃ span, e = .string span text := by
  apply reads_of_primary
  case starts => rcases isQuote with rfl | rfl <;> exact fun _ _ _ => rfl
  case opens =>
    intro offset rest _
    rw [Lexeme.next_quoted isQuote]
    exact ⟨by rintro ⟨⟩, by rintro mark _ ⟨⟩⟩
  case nonempty => simp [quotedChars]
  case read =>
    intro depth previous offset waiting rest enough _
    have long : 0 < (quotedChars quote text).length := by simp [quotedChars]
    obtain ⟨depth, rfl⟩ : ∃ less, depth = less + 1 := ⟨depth - 1, by omega⟩
    rw [State.facing, Lexeme.next_quoted isQuote]
    exact ⟨_, rfl, fun _ _ => ⟨_, rfl⟩⟩

def valueNames : List String := ["undefined", "Infinity", "NaN"]

theorem reads_identifier {name : String} (isValue : name ∈ valueNames) :
    Reads name.toList fun _ e => ∃ span, e = .identifier span name := by
  have isName : Text.isIdentifier name = true := by
    have each : ∀ name ∈ valueNames, Text.isIdentifier name = true := by decide
    exact each name isValue
  have next (offset : Nat) {rest : List Char} (closes : Closes rest) :=
    Lexeme.next_name isName closes.endsName offset
  apply reads_of_primary
  case starts =>
    simp only [valueNames, List.mem_cons, List.not_mem_nil, or_false] at isValue
    rcases isValue with rfl | rfl | rfl <;> exact fun _ _ _ => rfl
  case opens =>
    intro offset rest closes
    have each : ∀ name ∈ valueNames, StartsOperand (.word name false) := by decide
    rw [next offset closes]
    exact each name isValue
  case nonempty =>
    have each : ∀ name ∈ valueNames, name.toList ≠ [] := by decide
    exact each name isValue
  case read =>
    intro depth previous offset waiting rest enough closes
    have long : 0 < name.toList.length := by
      have each : ∀ name ∈ valueNames, 0 < name.toList.length := by decide
      exact each name isValue
    obtain ⟨depth, rfl⟩ : ∃ less, depth = less + 1 := ⟨depth - 1, by omega⟩
    refine ⟨.identifier ⟨offset, offset + Text.byteSize name.toList⟩ name, ?_,
      fun _ _ => ⟨_, rfl⟩⟩
    rw [State.facing, next offset closes]
    simp only [valueNames, List.mem_cons, List.not_mem_nil, or_false] at isValue
    rcases isValue with rfl | rfl | rfl <;> rfl

theorem reads_boolean (value : Bool) : Reads (if value then "true" else "false").toList
    fun _ e => ∃ span, e = .boolean span value := by
  have next (offset : Nat) {rest : List Char} (closes : Closes rest) :
      Lexeme.next ⟨offset, (if value then "true" else "false").toList ++ rest⟩ = _ :=
    Lexeme.next_name (by cases value <;> decide) closes.endsName offset
  apply reads_of_primary
  case starts => cases value <;> exact fun _ _ _ => rfl
  case opens =>
    intro offset rest closes
    rw [next offset closes]
    change StartsOperand (.word (if value then "true" else "false") false)
    cases value <;> decide
  case nonempty => cases value <;> decide
  case read =>
    intro depth previous offset waiting rest enough closes
    have long : 4 ≤ (if value then "true" else "false").toList.length := by cases value <;> decide
    obtain ⟨depth, rfl⟩ : ∃ less, depth = less + 1 := ⟨depth - 1, by omega⟩
    rw [State.facing, next offset closes]
    refine ⟨.boolean ⟨offset, offset + Text.byteSize (if value then "true" else "false").toList⟩
      value, ?_, fun _ _ => ⟨_, rfl⟩⟩
    cases value <;> rfl

/-! Arrays. -/

theorem listTail_bracket : ListTail "]" [']'] where
  closes rest := .bracket rest
  leads _ _ _ := ⟨_, .closed rfl rfl, rfl⟩

theorem listTail_parenthesis : ListTail ")" [')'] where
  closes rest := .parenthesis rest
  leads _ _ _ := ⟨_, .closed rfl rfl, rfl⟩

variable {ι : Type} {gap : List Char}

def ReadsItems (Q : Source → Expr → ι → Prop) (xs : List ι) (source : Source) (e : Expr) : Prop :=
  ∃ span items, e = .array span items ∧
    List.Forall₂ (fun item x => ∃ e, item = .value e ∧ Q source e x) items xs

theorem primary_of_array (isGap : IsGap gap) (sameLine : gap.contains '\n' = false)
    (text : ι → List Char) (Q : Source → Expr → ι → Prop) (xs : List ι)
    (each : ∀ x ∈ xs, Reads (text x) (Q · · x)) (depth : Nat)
    (enough : 8 * ('[' :: joined gap [']'] (xs.map text)).length ≤ depth + 4)
    (previous offset waiting : Nat) (rest : List Char) :
    ∃ items, primary (rules depth) .module depth
        (.facing previous ⟨offset, '[' :: joined gap [']'] (xs.map text) ++ rest⟩ waiting) =
        some (.array ⟨offset, offset + Text.byteSize ('[' :: joined gap [']'] (xs.map text))⟩ items,
          .behind ⟨offset + Text.byteSize ('[' :: joined gap [']'] (xs.map text)), rest⟩
            waiting) ∧
      ∀ source : Source, source.GoesOn offset ('[' :: joined gap [']'] (xs.map text) ++ rest) →
        List.Forall₂ (fun item x => ∃ e, item = .value e ∧ Q source e x) items xs := by
  have long := length_le_joined gap (Nat.le_refl [']'].length) text xs
  rw [List.length_cons] at enough
  by_cases nonempty : xs = []
  case pos =>
    subst nonempty
    simp only [List.map_nil, joined, List.length_singleton] at enough
    obtain ⟨depth, rfl⟩ : ∃ less, depth = less + 1 := ⟨depth - 1, by omega⟩
    exact ⟨[], rfl, fun _ _ => .nil⟩
  have items : ∀ x ∈ xs, ReadsPart (Grammar.arrayItem (rules depth) .module) "]" false
      (text x) fun source item => ∃ e, item = .value e ∧ Q source e x := by
    intro x member
    have shorter := length_le_of_mem gap [']'] text member
    exact (each x member).arrayItem (by omega)
  obtain ⟨found, s, list, closing, meaning⟩ := listUntil_joined isGap_nil isGap
    (by rw [sameLine]; rfl) listTail_bracket text
    (fun source item x => ∃ e, item = Item.value e ∧ Q source e x) nonempty
    (by rw [sameLine]; exact items)
    (by rw [bound_rules]; omega : xs.length < (rules depth).bound) (offset + 1) waiting rest
  have size : offset + 1 + Text.byteSize (joined gap [']'] (xs.map text)) =
      offset + Text.byteSize ('[' :: joined gap [']'] (xs.map text)) := Nat.add_assoc _ _ _
  rw [List.nil_append, size] at closing
  have read := primary_of_items (r := rules depth) (c := .module) (by omega : 0 < depth) list
    closing previous
  exact ⟨found, read, fun source goesOn => meaning source goesOn.behind_cons⟩

theorem reads_array (isGap : IsGap gap) (sameLine : gap.contains '\n' = false)
    (text : ι → List Char) (Q : Source → Expr → ι → Prop) (xs : List ι)
    (each : ∀ x ∈ xs, Reads (text x) (Q · · x)) :
    Reads ('[' :: joined gap [']'] (xs.map text)) (ReadsItems Q xs) := by
  apply reads_of_primary
  case starts => exact fun _ _ _ => rfl
  case opens => exact fun _ _ _ => (by decide : StartsOperand (.mark "["))
  case nonempty => exact List.cons_ne_nil _ _
  case read =>
    intro depth previous offset waiting rest enough _
    obtain ⟨items, read, meaning⟩ := primary_of_array isGap sameLine text Q xs each depth enough previous
      offset waiting rest
    exact ⟨_, read, fun source goesOn => ⟨_, items, rfl, meaning source goesOn⟩⟩

end DesignLink.Script
