import DesignLink.Proofs.Script.Lists

/-!
Operands in their text: names with members and calls behind them, arrays and objects. Each is read up
to its last character, and what follows it only has to end the expression.
-/

namespace DesignLink.Script

namespace Grammar

open DesignLink.Script.Parser

variable {r : Rules} {c : Context} {s s' : State} {start : Nat}

/-! Behind an operand. -/

theorem memberStep_of_stops (stops : Stops s) (allowsChain : Bool) (e : Chained) :
    memberStep r c start allowsChain e s = some (none, s) := by
  obtain ⟨⟨found, newline, from_, here, stop, rest⟩, previous, waiting⟩ := s
  simp only [Stops, stopTokens, List.mem_cons, List.not_mem_nil, or_false] at stops
  rcases stops with rfl | rfl | rfl | rfl | rfl | rfl | rfl | rfl <;> rfl

theorem memberRest_of_stops (positive : 0 < r.bound) (stops : Stops s) (e : Chained) :
    memberRest r c start true e s = some (e, s) := by
  apply iterate_done positive
  simp [bind_apply, memberStep_of_stops stops, pure_apply]

theorem callStep_of_stops (stops : Stops s) (e : Chained) :
    callStep r c start e s = some (none, s) := by
  have follows := notAt_of_stops stops
  have noChain : eat "?." s = some (false, s) := follows.eat (by decide)
  have noCall : at? "(" s = some (false, s) := follows.at? (by decide)
  have noTypes : atAny ["<", "<<"] s = some (false, s) := follows.atAny (by decide)
  simp [callStep, bind_apply, noChain, noCall, noTypes, pure_apply, require]

/-- The members and calls behind an operand, up to a token that ends the expression; the number
counts the calls. -/
inductive CallRun (r : Rules) (c : Context) (start : Nat) :
    Nat → Expr → State → Expr → State → Prop where
  | stop {e s e' s'} (members : memberRest r c start true ⟨e, false⟩ s = some (⟨e', false⟩, s'))
      (stops : Stops s') : CallRun r c start 0 e s e' s'
  | call {n e s callee s' called s'' e' s'''}
      (members : memberRest r c start true ⟨e, false⟩ s = some (⟨callee, false⟩, s'))
      (called_ : callStep r c start ⟨callee, false⟩ s' = some (some ⟨called, false⟩, s''))
      (rest : CallRun r c start n called s'' e' s''') : CallRun r c start (n + 1) e s e' s'''

theorem CallRun.iterate {n : Nat} {e e' : Expr} (run : CallRun r c start n e s e' s') :
    ∀ bound, n < bound →
      Parser.iterate (fun e => do
        let e ← memberRest r c start true e
        match ← callStep r c start e with
        | some e => return .inl e
        | none => return .inr e) bound (⟨e, false⟩ : Chained) s =
        some ((⟨e', false⟩ : Chained), s') := by
  induction run with
  | stop members stops =>
    intro bound enough
    apply iterate_done (by omega)
    simp [bind_apply, members, callStep_of_stops stops, pure_apply]
  | call members called_ rest ih =>
    intro bound enough
    obtain ⟨bound, rfl⟩ : ∃ less, bound = less + 1 := ⟨bound - 1, by omega⟩
    simp only [Parser.iterate, bind_apply, members, called_, pure_apply, Option.bind_some]
    exact ih bound (by omega)

theorem operandRule_of_run {n : Nat} {head e : Expr} {s'' : State} (enough : n < r.bound)
    (starts : s.lexeme.start = start) (read : primary r c r.bound s = some (head, s'))
    (run : CallRun r c start n head s' e s'') : operandRule r c s = some (e, s'') := by
  subst starts
  have all := run.iterate r.bound enough
  simp only [operandRule, bind_apply, Parser.start, read, Option.bind_some]
  erw [all]
  rfl

theorem operandRule_of_primary {d : Nat} {e : Expr} (positive : 0 < d)
    (read : primary (rules d) c d s = some (e, s')) (stops : Stops s') :
    operandRule (rules d) c s = some (e, s') := by
  obtain ⟨d, rfl⟩ : ∃ less, d = less + 1 := ⟨d - 1, by omega⟩
  have run : CallRun (rules (d + 1)) c s.lexeme.start 0 e s' e s' :=
    .stop (memberRest_of_stops (Nat.succ_pos d) stops _) stops
  exact operandRule_of_run (Nat.succ_pos d) rfl read run

/-! Arrays and objects. -/

theorem primary_of_items {bound offset waiting : Nat} {text : List Char} {place : Place}
    {items : List Item} (positive : 0 < bound)
    (list : listUntil r.bound "]" (arrayItem r c.withIn) (.behind ⟨offset + 1, text⟩ waiting) =
      some (items, s))
    (closing : expect "]" s = some ((), .behind place waiting)) (previous : Nat) :
    primary r c bound (.facing previous ⟨offset, '[' :: text⟩ waiting) =
      some (.array ⟨offset, place.offset⟩ items, .behind place waiting) := by
  obtain ⟨bound, rfl⟩ : ∃ less, bound = less + 1 := ⟨bound - 1, by omega⟩
  have opening : expect "[" (.facing previous ⟨offset, '[' :: text⟩ waiting) =
      some ((), .behind ⟨offset + 1, text⟩ waiting) := rfl
  have same : primary r c (bound + 1) (.facing previous ⟨offset, '[' :: text⟩ waiting) =
      arrayLiteral r c (.facing previous ⟨offset, '[' :: text⟩ waiting) := rfl
  simp only [same, arrayLiteral, bind_apply, Parser.start, opening, list, closing, Option.bind_some]
  rfl

theorem primary_of_members {bound offset waiting : Nat} {text : List Char}
    {place : Place} {members : List Member} (positive : 0 < bound)
    (list : listUntil r.bound "\x7d" (objectMember r c.withIn)
      (.behind ⟨offset + 1, text⟩ waiting) = some (members, s))
    (closing : expect "\x7d" s = some ((), .behind place waiting)) (previous : Nat) :
    primary r c bound (.facing previous ⟨offset, '\x7b' :: text⟩ waiting) =
      some (.object ⟨offset, place.offset⟩ members, .behind place waiting) := by
  obtain ⟨bound, rfl⟩ : ∃ less, bound = less + 1 := ⟨bound - 1, by omega⟩
  have opening : expect "\x7b" (.facing previous ⟨offset, '\x7b' :: text⟩ waiting) =
      some ((), .behind ⟨offset + 1, text⟩ waiting) := rfl
  have same : primary r c (bound + 1) (.facing previous ⟨offset, '\x7b' :: text⟩ waiting) =
      objectLiteral r c (.facing previous ⟨offset, '\x7b' :: text⟩ waiting) := rfl
  simp only [same, objectLiteral, bind_apply, Parser.start, opening, list, closing, Option.bind_some]
  rfl

/-! Calls. -/

theorem argument_of_value {e : Expr} (notSpread : NotAt ["..."] s)
    (read : r.value c s = some (e, s')) : argument r c s = some (.value e, s') := by
  have noSpread : eat "..." s = some (false, s) := notSpread.eat (by decide)
  simp [argument, bind_apply, noSpread, read, Parser.start, map_apply]

theorem arguments_of_items {offset waiting : Nat} {text : List Char} {place : Place}
    {items : List Item}
    (list : listUntil r.bound ")" (argument r c.withIn) (.behind ⟨offset + 1, text⟩ waiting) =
      some (items, s))
    (closing : expect ")" s = some ((), .behind place waiting)) (previous : Nat) :
    arguments r c (.facing previous ⟨offset, '(' :: text⟩ waiting) =
      some (items, .behind place waiting) := by
  have opening : expect "(" (.facing previous ⟨offset, '(' :: text⟩ waiting) =
      some ((), .behind ⟨offset + 1, text⟩ waiting) := rfl
  simp only [arguments, bind_apply, opening, list, closing, Option.bind_some, pure_apply]

theorem callStep_of_arguments {callee : Expr} {items : List Item} {previous offset waiting : Nat}
    {text : List Char} {place : Place}
    (plain : ∀ span inner types, callee ≠ .instantiation span inner types)
    (read : arguments r c (.facing previous ⟨offset, '(' :: text⟩ waiting) =
      some (items, .behind place waiting)) :
    callStep r c start ⟨callee, false⟩ (.facing previous ⟨offset, '(' :: text⟩ waiting) =
      some (some ⟨.call ⟨start, place.offset⟩ callee [] items, false⟩,
        .behind place waiting) := by
  have noChain : eat "?." (.facing previous ⟨offset, '(' :: text⟩ waiting) =
      some (false, .facing previous ⟨offset, '(' :: text⟩ waiting) := rfl
  have noTypes : atAny ["<", "<<"] (.facing previous ⟨offset, '(' :: text⟩ waiting) =
      some (false, .facing previous ⟨offset, '(' :: text⟩ waiting) := rfl
  have atCall : at? "(" (.facing previous ⟨offset, '(' :: text⟩ waiting) =
      some (true, .facing previous ⟨offset, '(' :: text⟩ waiting) := rfl
  have span : spanFrom start (.behind place waiting) =
      some (⟨start, place.offset⟩, .behind place waiting) := rfl
  simp only [callStep, bind_apply, noChain, noTypes, atCall, read, span,
    Option.bind_some, pure_apply, Bool.false_and, Bool.false_eq_true, if_false, if_true]
  cases callee with
  | instantiation span inner types => exact absurd rfl (plain span inner types)
  | _ => rfl

end Grammar

end DesignLink.Script
