import DesignLink.Proofs.Script.Operands

/-!
Names with members behind them: `name.member.member`, up to a token that is no further member.
-/

namespace DesignLink.Script

open DesignLink.Script.Parser

def membersText : List String → List Char
  | [] => []
  | name :: names => '.' :: (name.toList ++ membersText names)

theorem endsName_membersText {rest : List Char} (ends : EndsName rest) (names : List String) :
    EndsName (membersText names ++ rest) := by
  cases names with
  | nil => exact ends
  | cons name names =>
    rintro c ⟨⟩
    decide

theorem Lexeme.next_point {name : String} (isName : Text.isIdentifier name = true)
    (offset : Nat) (rest : List Char) :
    Lexeme.next ⟨offset, '.' :: (name.toList ++ rest)⟩ =
      ⟨.mark ".", false, offset, '.' :: (name.toList ++ rest), offset + 1,
        name.toList ++ rest⟩ := by
  obtain ⟨c, more, shape, starts, _⟩ := (isIdentifier_iff name).mp isName
  rw [shape, List.cons_append]
  have noDigit : Number.isDigit c = false := isDigit_of_startsName starts
  have noPoint : ('.' == c) = false := by
    have other : '.' ≠ c := (ne_of_startsName starts rfl).symm
    simpa using other
  have mark : Token.scanMark ('.' :: c :: (more ++ rest)) = some "." := by
    have noDots : "...".toList.isPrefixOf ('.' :: c :: (more ++ rest)) = false := by
      change ('.' == '.' && ('.' == c && _)) = false
      rw [noPoint]
      rfl
    change (match "...".toList.isPrefixOf ('.' :: c :: (more ++ rest)) with
      | true => some "..."
      | false => _) = _
    rw [noDots]
    rfl
  have number : (Number.isDigit '.' || (decide ('.' = '.') &&
      ((c :: (more ++ rest)).head?.map Number.isDigit).getD false)) = false := by
    simp [noDigit, show Number.isDigit '.' = false from rfl]
  exact Lexeme.next_mark (fun _ _ => rfl) (by decide) number mark offset

namespace Grammar

variable {r : Rules} {c : Context} {start : Nat}

theorem primary_of_name {name : String} (isName : Parser.isName c name = true)
    (notAsync : name ≠ "async") {bound : Nat} (positive : 0 < bound) (newline : Bool)
    (from_ stop : Nat) (here rest : List Char) (previous waiting : Nat) :
    primary r c bound ⟨⟨.word name false, newline, from_, here, stop, rest⟩, previous, waiting⟩ =
      some (.identifier ⟨from_, stop⟩ name, .behind ⟨stop, rest⟩ waiting) := by
  obtain ⟨bound, rfl⟩ : ∃ less, bound = less + 1 := ⟨bound - 1, by omega⟩
  have free : name ∉ reserved := by
    intro among
    simp [Parser.isName, among] at isName
  have other {word : String} (special : word ∈ reserved) : name ≠ word := by
    rintro rfl
    exact free special
  have noFunction : atAsyncFunction
      ⟨⟨.word name false, newline, from_, here, stop, rest⟩, previous, waiting⟩ =
      some (false, ⟨⟨.word name false, newline, from_, here, stop, rest⟩, previous, waiting⟩) := by
    simp [atAsyncFunction, wouldRead, expect, bind_apply, at?, plainText, notAsync, fail]
  have here_ : Parser.name c
      ⟨⟨.word name false, newline, from_, here, stop, rest⟩, previous, waiting⟩ =
      some (name, .behind ⟨stop, rest⟩ waiting) := by
    simp only [Parser.name, bind_apply, nameHere?, isName, if_true, Option.bind_some]
    rfl
  have default_ : primary r c (bound + 1)
      ⟨⟨.word name false, newline, from_, here, stop, rest⟩, previous, waiting⟩ =
      (do
        if ← atAsyncFunction then functionExpression r c
        else
          let start ← Parser.start
          let text ← Parser.name c
          return .identifier (← spanFrom start) text : Parser Expr)
      ⟨⟨.word name false, newline, from_, here, stop, rest⟩, previous, waiting⟩ := by
    rw [primary, token_bind]
    refine congrFun ?_ _
    dsimp only
    split
    all_goals first
      | rfl
      | (rename_i same
         injection same with same
         exact absurd same (other (by decide)))
      | (rename_i same; cases same)
  rw [default_]
  simp only [bind_apply, noFunction, here_, Option.bind_some, Bool.false_eq_true, if_false,
    Parser.start]
  rfl

theorem memberStep_name {name : String} (isName : Text.isIdentifier name = true)
    {rest : List Char} (ends : EndsName rest) (e : Expr) (previous offset waiting : Nat) :
    memberStep r c start true ⟨e, false⟩
      (.facing previous ⟨offset, '.' :: (name.toList ++ rest)⟩ waiting) =
      some (some ⟨.property ⟨start, offset + 1 + Text.byteSize name.toList⟩ e, false⟩,
        .behind ⟨offset + 1 + Text.byteSize name.toList, rest⟩ waiting) := by
  have named : namedMember start e
      (.facing (offset + 1) ⟨offset + 1, name.toList ++ rest⟩ waiting) =
      some (.property ⟨start, offset + 1 + Text.byteSize name.toList⟩ e,
        .behind ⟨offset + 1 + Text.byteSize name.toList, rest⟩ waiting) := by
    rw [State.facing, Lexeme.next_name isName ends]
    rfl
  have point : memberStep r c start true ⟨e, false⟩
      (.facing previous ⟨offset, '.' :: (name.toList ++ rest)⟩ waiting) =
      (namedMember start e (.facing (offset + 1) ⟨offset + 1, name.toList ++ rest⟩ waiting)).bind
        fun found => some (some ⟨found.1, false⟩, found.2) := by
    rw [State.facing, Lexeme.next_point isName]
    rfl
  rw [point, named]
  rfl

/-- An operand with named members behind it, from an offset on. -/
def dotted (start offset : Nat) (e : Expr) : List String → Expr
  | [] => e
  | name :: names =>
    dotted start (offset + 1 + Text.byteSize name.toList)
      (.property ⟨start, offset + 1 + Text.byteSize name.toList⟩ e) names

theorem memberRest_names (start : Nat) {rest : List Char} (ends : EndsName rest) (waiting : Nat)
    (stop : ∀ e offset, memberStep r c start true ⟨e, false⟩ (.behind ⟨offset, rest⟩ waiting) =
      some (none, .behind ⟨offset, rest⟩ waiting)) :
    ∀ (names : List String), (∀ name ∈ names, Text.isIdentifier name = true) →
      names.length < r.bound → ∀ (e : Expr) (offset : Nat),
      memberRest r c start true ⟨e, false⟩ (.behind ⟨offset, membersText names ++ rest⟩ waiting) =
        some (⟨dotted start offset e names, false⟩,
          .behind ⟨offset + Text.byteSize (membersText names), rest⟩ waiting) := by
  intro names
  unfold memberRest
  generalize r.bound = bound
  induction names generalizing bound with
  | nil =>
    intro _ enough e offset
    apply iterate_done enough
    simp only [membersText, List.nil_append, bind_apply, stop, Option.bind_some, pure_apply]
    rfl
  | cons name names ih =>
    intro areNames enough e offset
    obtain ⟨bound, rfl⟩ : ∃ less, bound = less + 1 := ⟨bound - 1, by omega⟩
    have step : memberStep r c start true ⟨e, false⟩
        (.behind ⟨offset, membersText (name :: names) ++ rest⟩ waiting) =
        some (some ⟨.property ⟨start, offset + 1 + Text.byteSize name.toList⟩ e, false⟩,
          .behind ⟨offset + 1 + Text.byteSize name.toList, membersText names ++ rest⟩
            waiting) := by
      rw [membersText, List.cons_append, List.append_assoc]
      exact memberStep_name (areNames name (by simp)) (endsName_membersText ends names) e offset
        offset waiting
    have size : offset + Text.byteSize (membersText (name :: names)) =
        offset + 1 + Text.byteSize name.toList + Text.byteSize (membersText names) := by
      simp only [membersText, Text.byteSize_cons, Text.byteSize_append,
        show ('.' : Char).utf8Size = 1 from rfl]
      omega
    have later := ih bound (fun other member => areNames other (by simp [member]))
      (by rw [List.length_cons] at enough; omega)
      (.property ⟨start, offset + 1 + Text.byteSize name.toList⟩ e)
      (offset + 1 + Text.byteSize name.toList)
    simp only [iterate, bind_apply, step, Option.bind_some, pure_apply]
    rw [size]
    exact later

end Grammar

end DesignLink.Script
