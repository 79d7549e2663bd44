import DesignLink.Declaration.Connections
import DesignLink.Proofs.Layout.Modules
import Mathlib.Data.List.Pairwise

/-!
Which calls of a module declare connections: the walk over the module finds every `figma.connect`
call that is not inside another one, once, in the order of the text.
-/

namespace DesignLink

open Script

namespace Declaration

/-- A call declares a connection if its text starts with the name for that. -/
def Declares (source : Source) (e : Expr) : Prop :=
  e.isCall ∧ connectName.toList <+: (source.textOf e.span).toList

/-- The calls of a module that declare a connection and are not inside another such call. -/
structure Outermost (source : Source) (module : Module) (e : Expr) : Prop where
  holds : module.Holds e
  declares : Declares source e
  free : ∀ outer, module.Holds outer → Declares source outer → ¬ e.Inside outer

variable {source : Source}

theorem callsInExprs_eq (es : List Expr) :
    callsInExprs source es = es.flatMap (callsInExpr source) := by
  induction es with
  | nil => rfl
  | cons e rest ih => rw [callsInExprs, ih, List.flatMap_cons]

theorem callsInItems_eq (items : List Item) :
    callsInItems source items = (items.flatMap Item.parts).flatMap (callsInExpr source) := by
  induction items with
  | nil => rfl
  | cons item rest ih =>
    cases item <;> simp [callsInItems, ih, Item.parts]

theorem callsInMembers_eq (members : List Member) :
    callsInMembers source members =
      (members.flatMap Member.parts).flatMap (callsInExpr source) := by
  induction members with
  | nil => rfl
  | cons member rest ih =>
    cases member with
    | field span key computed value =>
      cases key <;> simp [callsInMembers, callsInKey, ih, Member.parts, Key.parts]
    | spread | initialized => simp [callsInMembers, ih, Member.parts]

theorem declares_call_iff {span : Span} {callee : Expr} {types : List Expr} {items : List Item} :
    Declares source (.call span callee types items) ↔ isConnect source span = true := by
  rw [isConnect, List.isPrefixOf_iff_prefix]
  exact ⟨fun declares => declares.2, fun starts => ⟨rfl, starts⟩⟩

/-- The walk stops at a call that declares a connection and goes through all parts of any other
expression. -/
theorem callsInExpr_of_declares {e : Expr} (declares : Declares source e) :
    callsInExpr source e = [e] := by
  cases e with
  | call span callee types items =>
    rw [callsInExpr, if_pos (declares_call_iff.mp declares)]
  | _ => cases declares.1

theorem callsInExpr_of_not_declares {e : Expr} (other : ¬ Declares source e) :
    callsInExpr source e = e.parts.flatMap (callsInExpr source) := by
  cases e with
  | call span callee types items =>
    rw [callsInExpr, if_neg (mt declares_call_iff.mpr other)]
    simp [Expr.parts, callsInExprs_eq, callsInItems_eq]
  | _ =>
    simp [callsInExpr, Expr.parts, callsInExprs_eq, callsInItems_eq, callsInMembers_eq]

theorem connectCalls_eq (module : Module) :
    connectCalls source module = module.parts.flatMap (callsInExpr source) := by
  have statement (s : Statement) :
      callsInStatement source s = s.parts.flatMap (callsInExpr source) := by
    cases s <;> simp [callsInStatement, Statement.parts, callsInExprs_eq]
  rw [connectCalls, Module.parts, List.flatMap_assoc]
  rw [funext statement]

/-! What the walk finds. -/

theorem of_mem_callsInExpr {root e : Expr} (found : e ∈ callsInExpr source root) :
    e.Within root ∧ Declares source e := by
  induction root using WellFounded.induction (measure (sizeOf : Expr → Nat)).wf with
  | _ root ih =>
    by_cases declares : Declares source root
    · rw [callsInExpr_of_declares declares, List.mem_singleton] at found
      subst found
      exact ⟨.refl, declares⟩
    · rw [callsInExpr_of_not_declares declares] at found
      obtain ⟨p, inside, found⟩ := List.mem_flatMap.mp found
      have later := ih p (Expr.sizeOf_lt_of_mem_parts inside) found
      exact ⟨later.1.tail inside, later.2⟩

/-- Every call that declares a connection is one that the walk finds or inside such a call. -/
theorem exists_mem_callsInExpr {root e : Expr} (within : e.Within root)
    (declares : Declares source e) : ∃ call ∈ callsInExpr source root, e.Within call := by
  induction within with
  | refl => exact ⟨e, by simp [callsInExpr_of_declares declares], .refl⟩
  | @tail p root within inside ih =>
    by_cases outer : Declares source root
    · exact ⟨root, by simp [callsInExpr_of_declares outer], within.tail inside⟩
    · obtain ⟨call, found, below⟩ := ih
      refine ⟨call, ?_, below⟩
      rw [callsInExpr_of_not_declares outer]
      exact List.mem_flatMap.mpr ⟨p, inside, found⟩

theorem laid_callsInExpr {e : Expr} (ordered : e.Ordered) :
    Laid e.span.start e.span.stop (callsInExpr source e) := by
  induction ordered with
  | @intro e within apart ordered ih =>
    by_cases declares : Declares source e
    · rw [callsInExpr_of_declares declares]
      exact Laid.node ⟨within, apart, ordered⟩ rfl rfl
    · rw [callsInExpr_of_not_declares declares]
      exact Laid.flatMap ⟨within, apart, ordered⟩ ih

/-- A call that declares a connection has a text, so it does not end where it starts. -/
theorem Declares.start_lt_stop {e : Expr} (declares : Declares source e) :
    e.span.start < e.span.stop := by
  by_contra ends
  have empty : source.textOf e.span = "" := by
    unfold Source.textOf
    split
    · rfl
    · split
      · rfl
      · rw [Nat.sub_eq_zero_of_le (Nat.le_of_not_lt ends), Text.splitBytes?]
  have starts := declares.2
  rw [empty] at starts
  exact absurd starts (by decide)

variable {text : List Char} {module : Module} {e : Expr}

theorem laid_connectCalls (source : Source) (read : Module.read? text = some module) :
    ∃ lo hi, Laid lo hi (connectCalls source module) := by
  obtain ⟨lo, hi, laid⟩ := Module.laid_of_read? read
  rw [connectCalls_eq]
  exact ⟨lo, hi, laid.flatMap fun p member => laid_callsInExpr (laid.ordered p member)⟩

theorem declares_of_mem_connectCalls (found : e ∈ connectCalls source module) :
    module.Holds e ∧ Declares source e := by
  rw [connectCalls_eq] at found
  obtain ⟨p, member, found⟩ := List.mem_flatMap.mp found
  have inside := of_mem_callsInExpr found
  exact ⟨Module.holds_iff.mpr ⟨p, member, inside.1⟩, inside.2⟩

theorem exists_mem_connectCalls (holds : module.Holds e) (declares : Declares source e) :
    ∃ call ∈ connectCalls source module, e.Within call := by
  obtain ⟨p, member, within⟩ := Module.holds_iff.mp holds
  obtain ⟨call, found, below⟩ := exists_mem_callsInExpr within declares
  rw [connectCalls_eq]
  exact ⟨call, List.mem_flatMap.mpr ⟨p, member, found⟩, below⟩

theorem ascending_connectCalls (source : Source) (read : Module.read? text = some module) :
    (connectCalls source module).Pairwise fun e e' =>
      e.span.start < e'.span.start ∧ e.span.stop ≤ e'.span.start := by
  obtain ⟨lo, hi, laid⟩ := laid_connectCalls source read
  refine laid.apart.imp_of_mem fun {e e'} found found' before => ⟨?_, before⟩
  have positive := (declares_of_mem_connectCalls found).2.start_lt_stop
  exact Nat.lt_of_lt_of_le positive before

/-- No call that is found is inside another one: it would lie within its span, but calls that are
found do not overlap. -/
theorem not_inside_of_mem_connectCalls {outer : Expr} (read : Module.read? text = some module)
    (found : e ∈ connectCalls source module) (foundOuter : outer ∈ connectCalls source module) :
    ¬ e.Inside outer := by
  intro inside
  obtain ⟨lo, hi, laid⟩ := laid_connectCalls source read
  have different : e ≠ outer := fun same => absurd (same ▸ inside.sizeOf_lt) (Nat.lt_irrefl _)
  have within := (laid.ordered outer foundOuter).span_of_inside inside
  have positive := (declares_of_mem_connectCalls found).2.start_lt_stop
  have either : Std.Symm fun e e' : Expr => e.Before e' ∨ e'.Before e := ⟨fun _ _ => Or.symm⟩
  have disjoint : (connectCalls source module).Pairwise fun e e' => e.Before e' ∨ e'.Before e :=
    laid.apart.imp Or.inl
  rcases disjoint.forall found foundOuter different with before | behind
  · exact absurd (Nat.lt_of_le_of_lt within.1 positive) (Nat.not_lt_of_le before)
  · exact absurd (Nat.lt_of_lt_of_le positive within.2) (Nat.not_lt_of_le behind)

theorem mem_connectCalls_iff (read : Module.read? text = some module) :
    e ∈ connectCalls source module ↔ Outermost source module e := by
  constructor
  · intro found
    have inside := declares_of_mem_connectCalls found
    refine ⟨inside.1, inside.2, fun outer holds declares below => ?_⟩
    obtain ⟨call, foundCall, within⟩ := exists_mem_connectCalls holds declares
    exact not_inside_of_mem_connectCalls read found foundCall (below.trans_left within)
  · intro outermost
    obtain ⟨call, found, within⟩ := exists_mem_connectCalls outermost.holds outermost.declares
    have outer := declares_of_mem_connectCalls found
    rcases Relation.reflTransGen_iff_eq_or_transGen.mp within with same | below
    · exact same ▸ found
    · exact absurd below (outermost.free call outer.1 outer.2)

/-- A connection is read from every call of a file that declares one and is not inside another such
call, from each once and in the order of the text, whether or not the others can be read. -/
theorem readConnections_outermost [Diagnoses] (file text : String) :
    match Module.read? text.toList with
    | none => readConnections file text = .error (Source.ofString file text).refused
    | some module => ∃ calls : List Expr,
      readConnections file text = .ok (calls.map (connectionOfCall (.ofString file text))) ∧
        (∀ e, e ∈ calls ↔ Outermost (.ofString file text) module e) ∧
        calls.Pairwise fun e e' =>
          e.span.start < e'.span.start ∧ e.span.stop ≤ e'.span.start := by
  split
  case h_1 unread => simp [readConnections, Source.ofString, unread]
  case h_2 module read =>
    refine ⟨connectCalls (.ofString file text) module, ?_, fun e => mem_connectCalls_iff read,
      ascending_connectCalls (.ofString file text) read⟩
    simp [readConnections, Source.ofString, read]

end Declaration

end DesignLink
