import DesignLink.Proofs.Layout.Functions
import DesignLink.Script.Markup

/-!
Markup gives the expressions in it in the order of the text, if the rules that it leads back to do.
Its texts are no tokens, so the parser moves over them by hand.
-/

namespace DesignLink.Script.Grammar

open DesignLink.Script.Parser

theorem silent_markupWord : Silent markupWord := by
  unfold markupWord
  refine .of_lexeme fun s placed => ?_
  split
  case h_1 =>
    refine (ensures_moveTo placed (s.lexeme.place.leads_takeWhile _).le ?_).bind
      fun _ => Since.done rfl
    exact fun source rooted => (s.lexeme.place.leads_takeWhile _).goesOn rooted.here
  case h_2 => exact .fail

theorem silent_markupName (r : Rules) : Silent (markupName r) := by
  have dotWord : Silent (do advance; markupWord) :=
    .of_since fun s => .pass silent_advance fun _ => .last silent_markupWord
  unfold markupName
  refine .of_since fun s => .pass silent_markupWord fun _ => .pass (silent_eat _) fun _ => ?_
  refine .ite (.pass silent_markupWord fun _ => .done rfl) ?_
  refine .pass (silent_collectWhile _ (silent_at? _) dotWord) fun _ => ?_
  exact .pass (silent_require _) fun _ => .done rfl

/-- The parser goes on behind the current token. -/
def Leaves (p : Parser Unit) : Prop :=
  ∀ s, s.Placed → Ensures (· = s) p fun _ s' => Passage s [] s' ∧ s'.previous = s.lexeme.stop

theorem leaves_advance : Leaves advance := by
  rintro s placed _ rfl a s' run
  refine ⟨silent_advance _ placed run, ?_⟩
  unfold advance at run
  split at run <;> cases run
  rfl

theorem leaves_toNextChild : Leaves toNextChild := by
  intro s placed
  have next {c : Char} {rest : List Char} {place : Place} (plain : c.utf8Size = 1)
      (leads : s.lexeme.after.Leads place) (child : place.rest = c :: rest) :
      Ensures (· = s) (moveTo s.lexeme.stop
        ⟨.mark (String.singleton c), false, place.offset, place.rest, place.offset + 1, rest⟩)
        fun _ s' => Passage s [] s' ∧ s'.previous = s.lexeme.stop := by
    rintro s rfl a s' run
    cases run
    refine ⟨.silent ⟨leads.le, Nat.le_succ _⟩ (Nat.le_trans placed.start_le leads.le)
      (Nat.le_trans placed.previous_le placed.start_le) fun source rooted => ?_, rfl⟩
    have nonempty : s.lexeme.rest ≠ [] :=
      leads.rest_ne_nil (child ▸ List.cons_ne_nil c rest)
    have left : source.GoesOn s.lexeme.after.offset s.lexeme.after.rest :=
      rooted.after (.inr nonempty)
    have here : source.GoesOn place.offset place.rest := leads.goesOn left
    refine ⟨⟨_, left⟩, here, fun _ => ?_, ?_, nofun⟩
    · rw [child] at here
      have behind := here.behind_cons
      rwa [plain] at behind
    · intro text same
      cases same
      rw [child, String.toList_singleton]
      exact List.prefix_append [c] rest
  unfold toNextChild
  refine .of_lexeme (Ensures.bind (.look (still_require _)) fun _ => ?_)
  dsimp only
  split
  case h_3 => exact .fail
  case h_1 child | h_2 child => exact next rfl (s.lexeme.after.leads_takeWhile _) child

theorem leaves_endMarkup (isInside : Bool) (close : String) :
    Leaves (endMarkup isInside close) := by
  intro s placed
  unfold endMarkup
  refine Ensures.bind (.look (still_at? _)) fun _ => ?_
  refine Ensures.bind (.look (still_require _)) fun _ => ?_
  split
  · exact leaves_toNextChild s placed
  · exact leaves_advance s placed

theorem Leaves.silent {p : Parser Unit} (leaves : Leaves p) : Silent p :=
  fun s placed _ _ run => (leaves s placed rfl run).1

/-- The end of an element is the end of the last token taken. -/
def ClosesAt (p : Parser Nat) : Prop :=
  ∀ s, s.Placed → Ensures (· = s) p fun stop s' => Passage s [] s' ∧ s'.previous = stop

theorem closesAt_closeMarkup (isInside : Bool) : ClosesAt (closeMarkup isInside) := by
  intro s placed
  unfold closeMarkup
  refine .of_lexeme ?_
  exact (leaves_endMarkup isInside ">" s placed).bind fun _ => .pure fun _ left => left

theorem ClosesAt.of_pass {α : Type} {p : Parser α} {next : α → Parser Nat} (silent : Silent p)
    (closes : ∀ a, ClosesAt (next a)) : ClosesAt (p >>= next) := by
  rintro s placed _ rfl stop s' run
  rw [bind_apply, Option.bind_eq_some_iff] at run
  obtain ⟨⟨a, s₁⟩, ran, rest⟩ := run
  have first := silent _ placed ran
  obtain ⟨last, ends⟩ := closes a s₁ first.placed rfl rest
  exact ⟨first.trans last, ends⟩

theorem closesAt_closingPart {closingName : Parser Unit} (isInside : Bool)
    (names : Silent closingName) : ClosesAt (closingPart isInside closingName) := by
  unfold closingPart
  refine .of_pass (silent_expect _) fun _ => .of_pass (silent_expect _) fun _ => ?_
  exact .of_pass names fun _ => closesAt_closeMarkup isInside

theorem since_closed {s : State} {found parts : List Expr} {p : Parser Nat} (closes : ClosesAt p)
    (same : parts = found := by simp) :
    Since s found (p >>= fun stop => pure (.markup ⟨s.lexeme.start, stop⟩ parts)) ([·]) := by
  subst same
  have ends : Ensures (Passage s parts) p fun stop s' =>
      Passage s parts s' ∧ s'.previous = stop := by
    intro s₁ passage stop s' run
    obtain ⟨rest, ends⟩ := closes s₁ passage.placed rfl run
    exact ⟨by simpa using passage.trans rest, ends⟩
  exact ends.bind fun stop => .pure fun s' closed =>
    .nodeOf rfl closed.1 (by rw [closed.2]; rfl)

theorem silent_atClosing : Silent atClosing := by
  unfold atClosing
  exact silent_wouldRead _

theorem leads_scanAttribute {quote : Char} {place place' : Place} (plain : quote.utf8Size = 1)
    (found : scanAttribute quote place = some place') :
    place.rest ≠ [] ∧ place.Leads place' := by
  unfold scanAttribute at found
  split at found
  case h_2 => cases found
  case h_1 q rest shape =>
    split at found
    case isFalse => cases found
    case isTrue same =>
      dsimp only at found
      split at found
      case h_2 => cases found
      case h_1 closing after ends =>
        cases found
        subst same
        have isQuote : closing = q := by
          have stops := List.head?_dropWhile_not (· ≠ q) rest
          rw [ends] at stops
          simpa using stops
        have whole : rest = rest.takeWhile (· ≠ q) ++ [closing] ++ after := by
          rw [List.append_assoc, List.singleton_append, ← ends, List.takeWhile_append_dropWhile]
        have leads : Place.Leads ⟨place.offset + q.utf8Size, rest⟩ _ := .of_part whole rfl
        have size : place.offset + q.utf8Size +
            Text.byteSize (rest.takeWhile (· ≠ q) ++ [closing]) =
            place.offset + 2 + Text.byteSize (rest.takeWhile (· ≠ q)) := by
          rw [Text.byteSize_append, Text.byteSize_cons, Text.byteSize_nil, isQuote, plain]
          omega
        rw [size] at leads
        exact ⟨shape ▸ List.cons_ne_nil q rest, .of_rest shape leads⟩

variable {r : Rules} (orderly : r.Orderly) (c : Context)
include orderly

theorem lays_attributeValue : Lays (attributeValue r c) id := by
  unfold attributeValue
  refine .of_lexeme fun s placed => Ensures.bind (.look (still_require _)) fun _ => ?_
  split
  case h_1 => exact .fail
  case h_2 place skipped =>
    split
    case h_1 after scanned =>
      have quoted : place.rest ≠ [] ∧ place.Leads after := by
        cases double : scanAttribute '"' place with
        | some found =>
          rw [double] at scanned
          cases scanned
          exact leads_scanAttribute rfl double
        | none =>
          rw [double] at scanned
          exact leads_scanAttribute rfl scanned
      have skips : s.lexeme.after.Leads place := Gap.leads_skip skipped
      have nonempty : s.lexeme.rest ≠ [] := skips.rest_ne_nil quoted.1
      have leads : s.lexeme.after.Leads after := skips.trans quoted.2
      refine (ensures_moveTo placed (Nat.le_trans placed.start_le leads.le) ?_).bind
        fun _ => Since.done rfl
      exact fun source rooted => leads.goesOn (rooted.after (.inr nonempty))
    case h_2 =>
      have rest : Since s [] (do
          advance
          if ← eat "\x7b" then
            let value ← r.value c.withIn
            expect "\x7d"
            return [value]
          else return [← r.markup c false]) id := by
        refine .pass silent_advance fun _ => .pass (silent_eat _) fun _ => .ite ?_ ?_
        · refine .read (lays_value orderly _) fun _ => .pass (silent_expect _) fun _ => .done rfl
        · exact .read (orderly.markup _ _) fun _ => .done rfl
      rintro _ rfl
      exact rest (.refl placed)

theorem lays_markupAttribute : Lays (markupAttribute r c) id := by
  unfold markupAttribute
  refine .of_since fun s => .pass (silent_eat _) fun _ => .ite ?_ ?_
  · refine .pass (silent_expect _) fun _ => .read (lays_value orderly _) fun _ => ?_
    exact .pass (silent_expect _) fun _ => .done rfl
  refine .pass silent_markupWord fun _ => .pass (silent_eat _) fun _ => ?_
  refine .ite (.pass silent_markupWord fun _ => ?_) ?_
  all_goals
    refine .pass (silent_at? _) fun _ => .ite ?_ (.done rfl)
    exact .last (lays_attributeValue orderly _)

theorem lays_bracedChild : Lays (bracedChild r c) id := by
  unfold bracedChild
  refine .of_since fun s => .pass (silent_expect _) fun _ => .pass (silent_eat _) fun _ => ?_
  refine .pass (silent_at? _) fun _ => ?_
  refine .ite (.give ?_) (.read (lays_value orderly _) fun _ => .give ?_)
  all_goals exact .pass (leaves_endMarkup _ _).silent fun _ => .done rfl

theorem lays_children : Lays (children r c) id := by
  unfold children
  refine .of_since fun s => .iterate id (fun found => ?_) _ _
  refine .pass (silent_at? _) fun _ => .ite ?_ (.pass silent_atClosing fun _ => .ite (.done rfl) ?_)
  · exact .read (lays_bracedChild orderly _) fun _ => .done rfl
  · exact .read (orderly.markup _ _) fun _ => .done rfl

theorem lays_markupRule (isInside : Bool) : Lays (markupRule r c isInside) ([·]) := by
  unfold markupRule
  refine .of_start fun s => .pass (silent_expect _) fun _ => .pass (silent_at? _) fun _ => ?_
  refine .ite ?_ ?_
  · refine .pass leaves_toNextChild.silent fun _ => .read (lays_children orderly _) fun _ => ?_
    exact since_closed (closesAt_closingPart _ (.of_since fun _ => .done rfl))
  have attributes : Silent (do return !(← atAny ["/", ">"])) :=
    .of_since fun s => .pass (silent_atAny _) fun _ => .done rfl
  refine .pass (silent_markupName _) fun name => .pass (silent_at? _) fun _ => ?_
  refine .ite (.read (lays_typeArguments orderly _) fun _ => ?_) (.give ?_)
  all_goals
    refine .read (lays_collectWhile _ attributes (lays_markupAttribute orderly _)) fun _ => ?_
    refine .pass (silent_eat _) fun _ => .ite (since_closed (closesAt_closeMarkup _)) ?_
    refine .pass (silent_at? _) fun _ => .pass (silent_require _) fun _ => ?_
    refine .pass leaves_toNextChild.silent fun _ => .read (lays_children orderly _) fun _ => ?_
    refine since_closed (closesAt_closingPart _ ?_)
    exact .of_since fun _ => .pass (silent_markupName _) fun _ => .last (silent_require _)

end DesignLink.Script.Grammar
