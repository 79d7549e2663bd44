import DesignLink.Proofs.Script.Objects
import DesignLink.Proofs.Script.Paths

/-!
Calls in their text: a name with members behind it, called with values.
-/

namespace DesignLink.Script

open DesignLink.Script.Parser DesignLink.Script.Grammar

def IsOperandName (name : String) : Prop :=
  Text.isIdentifier name = true ∧ isName .module name = true ∧ name ≠ "async" ∧
    StartsOperand (.word name false)

instance (name : String) : Decidable (IsOperandName name) :=
  inferInstanceAs (Decidable (_ ∧ _ ∧ _ ∧ _))

def pathText (head : String) (names : List String) : List Char :=
  head.toList ++ membersText names

theorem length_le_membersText : ∀ names : List String, names.length ≤ (membersText names).length
  | [] => Nat.zero_le _
  | name :: names => by
    have later := length_le_membersText names
    simp only [membersText, List.length_cons, List.length_append]
    omega

section Path

variable {head : String} (isOperand : IsOperandName head) (names : List String)
include isOperand

theorem length_lt_pathText : names.length < (pathText head names).length := by
  obtain ⟨c, more, shape, _⟩ := (isIdentifier_iff head).mp isOperand.1
  have later := length_le_membersText names
  rw [pathText, shape]
  simp only [List.length_append, List.length_cons]
  omega

theorem startsToken_pathText (rest : List Char) : StartsToken (pathText head names ++ rest) := by
  rw [pathText, List.append_assoc]
  exact startsToken_of_isIdentifier isOperand.1 _

theorem startsOperand_pathText {rest : List Char} (ends : EndsName rest) (offset : Nat) :
    StartsOperand (Lexeme.next ⟨offset, pathText head names ++ rest⟩).token := by
  rw [pathText, List.append_assoc,
    Lexeme.next_name isOperand.1 (endsName_membersText ends names) offset]
  exact isOperand.2.2.2

theorem primary_of_pathText {rest : List Char} (ends : EndsName rest) {depth : Nat}
    (positive : 0 < depth) (newline : Bool) (previous offset waiting : Nat) :
    primary (rules depth) .module depth
      (.at newline previous ⟨offset, pathText head names ++ rest⟩ waiting) =
      some (.identifier ⟨offset, offset + Text.byteSize head.toList⟩ head,
        .behind ⟨offset + Text.byteSize head.toList, membersText names ++ rest⟩ waiting) := by
  rw [pathText, List.append_assoc, State.at,
    Lexeme.next_name isOperand.1 (endsName_membersText ends names) offset]
  exact primary_of_name isOperand.2.1 isOperand.2.2.1 positive newline offset
    (offset + Text.byteSize head.toList) _ (membersText names ++ rest) previous waiting

end Path

theorem byteSize_pathText (head : String) (names : List String) :
    Text.byteSize (pathText head names) =
      Text.byteSize head.toList + Text.byteSize (membersText names) := by
  rw [pathText, Text.byteSize_append]

theorem dotted_ne_instantiation (start : Nat) :
    ∀ (names : List String) (e : Expr), (∀ span inner types, e ≠ .instantiation span inner types) →
      ∀ offset, ∀ span inner types, dotted start offset e names ≠ .instantiation span inner types
  | [], _, plain, _ => plain
  | _ :: names, _, _, _ => dotted_ne_instantiation start names _ (by rintro _ _ _ ⟨⟩) _

def argumentsText (arguments : List (List Char)) : List Char :=
  '(' :: joined [' '] [')'] arguments

/-- A path with arguments in parentheses. -/
def callText (head : String) (names : List String) (arguments : List (List Char)) : List Char :=
  pathText head names ++ argumentsText arguments

/-- Members before a parenthesis are called with the arguments behind it. What stands behind the
call may still go on with it. -/
theorem callRun_of_members {names : List String} {ι : Type} {xs : List ι} {e : Expr}
    (plain : ∀ span inner types, e ≠ .instantiation span inner types)
    (areNames : ∀ name ∈ names, Text.isIdentifier name = true)
    (nonempty : xs ≠ []) (text : ι → List Char) (Q : Source → Expr → ι → Prop)
    (each : ∀ x ∈ xs, Reads (text x) (Q · · x)) {depth : Nat}
    (few : names.length < depth) (enough : 8 * (argumentsText (xs.map text)).length ≤ depth + 4)
    (start offset waiting : Nat) (rest : List Char) :
    ∃ callee items,
      (∀ n e' s', CallRun (rules depth) .module start n
          (.call ⟨start, offset + Text.byteSize (membersText names ++
            argumentsText (xs.map text))⟩ callee [] items)
          (.behind ⟨offset + Text.byteSize (membersText names ++ argumentsText (xs.map text)),
            rest⟩ waiting) e' s' →
        CallRun (rules depth) .module start (n + 1) e
          (.behind ⟨offset, membersText names ++ (argumentsText (xs.map text) ++ rest)⟩ waiting)
          e' s') ∧
      ∀ source : Source, source.GoesOn offset
          (membersText names ++ (argumentsText (xs.map text) ++ rest)) →
        List.Forall₂ (fun item x => ∃ e, item = .value e ∧ Q source e x) items xs := by
  have long := length_le_joined [' '] (Nat.le_refl [')'].length) text xs
  rw [argumentsText, List.length_cons] at enough
  have arguments_ : ∀ x ∈ xs, ReadsPart (Grammar.argument (rules depth) .module) ")" false
      (text x) fun source item => ∃ e, item = .value e ∧ Q source e x := by
    intro x member
    have among := length_le_of_mem [' '] [')'] text member
    exact (each x member).argument (by omega)
  obtain ⟨items, s, list, closing, meaning⟩ := listUntil_joined isGap_nil
    (by simp [IsGap] : IsGap [' ']) rfl listTail_parenthesis text
    (fun source item x => ∃ e, item = Item.value e ∧ Q source e x) nonempty arguments_
    (by rw [bound_rules]; omega : xs.length < (rules depth).bound)
    (offset + Text.byteSize (membersText names) + 1) waiting rest
  have size : offset + Text.byteSize (membersText names) + 1 +
      Text.byteSize (joined [' '] [')'] (xs.map text)) =
      offset + Text.byteSize (membersText names ++ argumentsText (xs.map text)) := by
    simp only [argumentsText, Text.byteSize_append, Text.byteSize_cons,
      show ('(' : Char).utf8Size = 1 from rfl]
    omega
  rw [List.nil_append, size] at closing
  have shape : argumentsText (xs.map text) ++ rest =
      '(' :: (joined [' '] [')'] (xs.map text) ++ rest) := rfl
  have ends : EndsName (argumentsText (xs.map text) ++ rest) := by
    rintro c ⟨⟩
    decide
  have members := memberRest_names (r := rules depth) (c := .module) start ends waiting
    (fun _ _ => rfl) names areNames (by rw [bound_rules]; exact few) e offset
  have read := arguments_of_items (r := rules depth) (c := .module) list closing
    (offset + Text.byteSize (membersText names))
  have callee := dotted_ne_instantiation start names e plain offset
  refine ⟨dotted start offset e names, items, fun n e' s'' run => ?_, fun source goesOn => ?_⟩
  · exact .call members (callStep_of_arguments callee read) run
  · rw [shape] at goesOn
    exact meaning source goesOn.behind.behind_cons

theorem callRun_of_arguments {head : String} {names : List String} {ι : Type} {xs : List ι}
    (isOperand : IsOperandName head) (areNames : ∀ name ∈ names, Text.isIdentifier name = true)
    (nonempty : xs ≠ []) (text : ι → List Char) (Q : Source → Expr → ι → Prop)
    (each : ∀ x ∈ xs, Reads (text x) (Q · · x)) (depth : Nat)
    (enough : 8 * (callText head names (xs.map text)).length ≤ depth + 4) (newline : Bool)
    (previous offset waiting : Nat) (rest : List Char) :
    ∃ e s callee items, primary (rules depth) .module depth
        (.at newline previous ⟨offset, callText head names (xs.map text) ++ rest⟩ waiting) =
        some (e, s) ∧
      (∀ n e' s', CallRun (rules depth) .module offset n
          (.call ⟨offset, offset + Text.byteSize (callText head names (xs.map text))⟩ callee []
            items)
          (.behind ⟨offset + Text.byteSize (callText head names (xs.map text)), rest⟩ waiting)
          e' s' →
        CallRun (rules depth) .module offset (n + 1) e s e' s') ∧
      ∀ source : Source, source.GoesOn offset (callText head names (xs.map text) ++ rest) →
        List.Forall₂ (fun item x => ∃ e, item = .value e ∧ Q source e x) items xs := by
  have shorter := length_lt_pathText isOperand names
  rw [callText, List.length_append] at enough
  have ends : EndsName (argumentsText (xs.map text) ++ rest) := by
    rintro c ⟨⟩
    decide
  have first := primary_of_pathText isOperand names ends (by omega : 0 < depth) newline
    previous offset waiting
  have plain : ∀ span inner types,
      Expr.identifier ⟨offset, offset + Text.byteSize head.toList⟩ head ≠
        .instantiation span inner types := by
    rintro _ _ _ ⟨⟩
  obtain ⟨callee, items, run, meaning⟩ := callRun_of_members plain areNames nonempty text Q each
    (by omega : names.length < depth) (by omega) offset
    (offset + Text.byteSize head.toList) waiting rest
  have size : offset + Text.byteSize head.toList +
      Text.byteSize (membersText names ++ argumentsText (xs.map text)) =
      offset + Text.byteSize (callText head names (xs.map text)) := by
    simp only [callText, byteSize_pathText, Text.byteSize_append]
    omega
  rw [size] at run
  rw [callText, List.append_assoc]
  refine ⟨_, _, callee, items, first, run, fun source goesOn => ?_⟩
  rw [pathText, List.append_assoc] at goesOn
  exact meaning source goesOn.behind

section Call

variable {head : String} {names : List String} {ι : Type} {xs : List ι}
  (isOperand : IsOperandName head) (areNames : ∀ name ∈ names, Text.isIdentifier name = true)
  (nonempty : xs ≠ []) (text : ι → List Char) (Q : Source → Expr → ι → Prop)
  (each : ∀ x ∈ xs, Reads (text x) (Q · · x))
include isOperand areNames nonempty each

/-- What is read for a call of a path with values: its span is its text. -/
def ReadsCall (head : String) (names : List String) (text : ι → List Char)
    (Q : Source → Expr → ι → Prop) (xs : List ι) (source : Source) (e : Expr) : Prop :=
  ∃ span callee items, e = .call span callee [] items ∧
    source.textOf span = String.ofList (callText head names (xs.map text)) ∧
    List.Forall₂ (fun item x => ∃ e, item = .value e ∧ Q source e x) items xs

theorem operand_of_call {depth : Nat}
    (enough : 8 * (callText head names (xs.map text)).length ≤ depth + 4) (newline : Bool)
    (previous offset waiting : Nat) {rest : List Char} (closes : Closes rest) :
    ∃ e, operandRule (rules depth) .module
        (.at newline previous ⟨offset, callText head names (xs.map text) ++ rest⟩ waiting) =
        some (e, .behind ⟨offset + Text.byteSize (callText head names (xs.map text)), rest⟩
          waiting) ∧
      ∀ source : Source, source.GoesOn offset (callText head names (xs.map text) ++ rest) →
        ReadsCall head names text Q xs source e := by
  obtain ⟨e, s, callee, items, first, run, meaning⟩ := callRun_of_arguments isOperand areNames
    nonempty text Q each depth enough newline previous offset waiting rest
  have long : 1 < (callText head names (xs.map text)).length := by
    have path := length_lt_pathText isOperand names
    rw [callText, argumentsText, List.length_append, List.length_cons]
    omega
  have last := run 0 _ _ (.stop (memberRest_of_stops (by rw [bound_rules]; omega)
    (closes.stops _ _ _) _) (closes.stops _ _ _))
  have starts : StartsToken (callText head names (xs.map text) ++ rest) := by
    rw [callText, List.append_assoc]
    exact startsToken_pathText isOperand names _
  have operand := operandRule_of_run (r := rules depth) (by rw [bound_rules]; omega)
    (State.start_at starts newline previous offset waiting) (by rw [bound_rules]; exact first) last
  refine ⟨_, operand, fun source goesOn => ?_⟩
  exact ⟨_, callee, items, rfl, goesOn.textOf, meaning source goesOn⟩

theorem reads_call :
    Reads (callText head names (xs.map text)) (ReadsCall head names text Q xs) := by
  have starts (rest : List Char) : StartsToken (callText head names (xs.map text) ++ rest) := by
    rw [callText, List.append_assoc]
    exact startsToken_pathText isOperand names _
  apply reads_of_operand starts
  case opens =>
    intro offset rest _
    rw [callText, List.append_assoc]
    exact startsOperand_pathText isOperand names (by rintro c ⟨⟩; decide) offset
  case nonempty => simp [callText, argumentsText]
  case read =>
    intro depth previous offset waiting rest enough closes
    rw [State.facing_eq_at (starts rest)]
    exact operand_of_call isOperand areNames nonempty text Q each enough false previous offset
      waiting closes

end Call

/-! Names. -/

def IsModuleName (name : String) : Prop :=
  Text.isIdentifier name = true ∧ Parser.isName .module name = true

def ReadsName (name : String) (source : Source) (e : Expr) : Prop :=
  ∃ span, e = .identifier span name ∧ source.textOf span = name

theorem isOperandName_of_isName {name : String} (isName : IsModuleName name) (notAsync : name ≠ "async") :
    IsOperandName name := by
  have others : ∀ mark ∈ openers ++ listMarks, Text.isIdentifier mark = false ∨
      Parser.isName .module mark = false ∨ mark = "async" := by decide
  refine ⟨isName.1, isName.2, notAsync, by rintro ⟨⟩, ?_⟩
  intro mark member same
  obtain rfl : name = mark := Option.some.inj same
  rcases others name member with noIdentifier | noName | async
  · rw [isName.1] at noIdentifier
    cases noIdentifier
  · rw [isName.2] at noName
    cases noName
  · exact notAsync async

theorem value_of_async (depth previous offset waiting : Nat) {rest : List Char}
    (closes : Closes rest) :
    (rules (depth + 5)).assignment .module true
      (.facing previous ⟨offset, "async".toList ++ rest⟩ waiting) =
      some (.identifier ⟨offset, offset + 5⟩ "async", .behind ⟨offset + 5, rest⟩ waiting) := by
  cases closes <;> rfl

theorem reads_name {name : String} (isName : IsModuleName name) :
    Reads name.toList (ReadsName name) := by
  by_cases async : name = "async"
  case pos =>
    subst async
    constructor
    case starts => exact fun _ _ _ => rfl
    case opens =>
      intro previous offset waiting rest closes
      rw [State.facing, Lexeme.next_name isName.1 closes.endsName]
      exact (by decide : ∀ mark ∈ listMarks, plainText (.word "async" false) ≠ some mark)
    case read =>
      intro depth previous offset waiting rest enough closes
      rw [show "async".toList.length = 5 from rfl] at enough
      obtain ⟨depth, rfl⟩ : ∃ less, depth = less + 5 := ⟨depth - 5, by omega⟩
      refine ⟨_, value_of_async depth previous offset waiting closes, ?_⟩
      intro source goesOn
      refine ⟨_, rfl, ?_⟩
      have text := goesOn.textOf
      rwa [show Text.byteSize "async".toList = 5 from rfl, String.ofList_toList] at text
  case neg =>
    have isOperand := isOperandName_of_isName isName async
    have positive : 0 < name.toList.length := by
      obtain ⟨c, more, shape, _⟩ := (isIdentifier_iff name).mp isName.1
      rw [shape]
      exact Nat.succ_pos _
    apply reads_of_primary (startsToken_of_isIdentifier isName.1)
    case opens =>
      intro offset rest closes
      rw [Lexeme.next_name isName.1 closes.endsName]
      exact isOperand.2.2.2
    case nonempty => exact List.length_pos_iff.mp positive
    case read =>
      intro depth previous offset waiting rest enough closes
      refine ⟨.identifier ⟨offset, offset + Text.byteSize name.toList⟩ name, ?_, ?_⟩
      · rw [State.facing, Lexeme.next_name isName.1 closes.endsName]
        exact primary_of_name isName.2 async (by omega) _ _ _ _ _ _ _
      · intro source goesOn
        have text := goesOn.textOf
        rw [String.ofList_toList] at text
        exact ⟨_, rfl, text⟩

/-! Paths. -/

theorem dotted_cons (start offset : Nat) (name : String) : ∀ (names : List String) (e : Expr),
    ∃ inner, dotted start offset e (name :: names) =
      .property ⟨start, offset + Text.byteSize (membersText (name :: names))⟩ inner
  | [], e => ⟨e, by
    simp only [dotted, membersText, Text.byteSize_cons, Text.byteSize_append, Text.byteSize_nil,
      show ('.' : Char).utf8Size = 1 from rfl, Nat.add_zero, Nat.add_assoc]⟩
  | other :: names, e => by
    obtain ⟨inner, shape⟩ := dotted_cons start (offset + 1 + Text.byteSize name.toList) other names
      (.property ⟨start, offset + 1 + Text.byteSize name.toList⟩ e)
    refine ⟨inner, ?_⟩
    rw [dotted, shape, membersText.eq_def (name :: other :: names)]
    simp only [Text.byteSize_cons, Text.byteSize_append, show ('.' : Char).utf8Size = 1 from rfl,
      Nat.add_assoc]

theorem reads_path {head name : String} {names : List String} (isOperand : IsOperandName head)
    (areNames : ∀ name' ∈ name :: names, Text.isIdentifier name' = true) :
    Reads (pathText head (name :: names)) fun source e => ∃ span inner,
      e = .property span inner ∧
      source.textOf span = String.ofList (pathText head (name :: names)) := by
  apply reads_of_operand (startsToken_pathText isOperand (name :: names))
  case opens =>
    intro offset rest closes
    exact startsOperand_pathText isOperand _ closes.endsName offset
  case nonempty =>
    have long := length_lt_pathText isOperand (name :: names)
    exact List.length_pos_iff.mp (by omega)
  case read =>
    intro depth previous offset waiting rest enough closes
    have long := length_lt_pathText isOperand (name :: names)
    rw [State.facing_eq_at (startsToken_pathText isOperand (name :: names) rest)]
    have first := primary_of_pathText isOperand (name :: names) closes.endsName
      (by omega : 0 < depth) false previous offset waiting
    have members := memberRest_names (r := rules depth) (c := .module) offset
      closes.endsName waiting (fun e offset' => memberStep_of_stops (closes.stops _ _ _) true _)
      (name :: names) areNames (by rw [bound_rules]; omega)
      (.identifier ⟨offset, offset + Text.byteSize head.toList⟩ head)
      (offset + Text.byteSize head.toList)
    have operand := operandRule_of_run (r := rules depth) (by rw [bound_rules]; omega)
      (State.start_at (startsToken_pathText isOperand (name :: names) rest) false previous offset waiting)
      (by rw [bound_rules]; exact first) (.stop members (closes.stops _ _ _))
    obtain ⟨inner, shape⟩ := dotted_cons offset (offset + Text.byteSize head.toList) name names
      (.identifier ⟨offset, offset + Text.byteSize head.toList⟩ head)
    rw [Nat.add_assoc, ← byteSize_pathText] at operand shape
    exact ⟨_, operand, fun source goesOn => ⟨_, inner, shape, goesOn.textOf⟩⟩

end DesignLink.Script
