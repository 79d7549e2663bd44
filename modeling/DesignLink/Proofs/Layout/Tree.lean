import DesignLink.Script.Tree
import Mathlib.Logic.Relation

/-!
The expressions right inside an expression, and trees whose expressions lie in the order of the
text: each within the one around it, each behind the one before it.
-/

namespace DesignLink.Script

def Item.parts : Item → List Expr
  | .value e | .spread _ e => [e]
  | .hole _ => []

/-- The expressions of a member: that of a computed key and the value. -/
def Member.parts : Member → List Expr
  | .field _ key _ value => key.parts ++ [value]
  | .spread _ value => [value]
  | .initialized _ name value => [name, value]

namespace Expr

/-- The expressions right inside an expression. -/
def parts : Expr → List Expr
  | identifier _ _ | string _ _ | number _ _ | boolean _ _ => []
  | template _ parts | function _ parts | markup _ parts | other _ parts => parts
  | object _ members => members.flatMap Member.parts
  | array _ items => items.flatMap Item.parts
  | call _ callee types arguments => callee :: types ++ arguments.flatMap Item.parts
  | property _ inner | chain _ inner | nonNull _ inner | negation _ inner | prefixed _ inner
  | group _ inner => [inner]
  | element _ inner index => inner :: index
  | instantiation _ inner types | ascription _ inner types => inner :: types
  | logical _ _ left right => [left, right]
  | assignment _ _ target value => [target, value]

theorem sizeOf_lt_of_mem_flatMap {α : Type} [SizeOf α] {parts : α → List Expr}
    (smaller : ∀ a, ∀ p ∈ parts a, sizeOf p < sizeOf a) {as : List α} {p : Expr}
    (member : p ∈ as.flatMap parts) : sizeOf p < sizeOf as := by
  obtain ⟨a, among, inside⟩ := List.mem_flatMap.mp member
  exact Nat.lt_trans (smaller a p inside) (List.sizeOf_lt_of_mem among)

theorem sizeOf_lt_of_mem_item (item : Item) : ∀ p ∈ item.parts, sizeOf p < sizeOf item := by
  intro p member
  cases item <;> simp only [Item.parts, List.mem_singleton, List.not_mem_nil] at member <;>
    subst member <;> simp +arith

theorem sizeOf_lt_of_mem_member (m : Member) : ∀ p ∈ m.parts, sizeOf p < sizeOf m := by
  intro p inside
  cases m with
  | field span key computed value =>
    cases key <;> simp only [Member.parts, Key.parts, List.cons_append, List.nil_append,
      List.mem_cons, List.not_mem_nil, or_false] at inside
    case name => subst inside; simp +arith
    case expression => rcases inside with rfl | rfl <;> simp +arith
  | spread span value =>
    rw [Member.parts, List.mem_singleton] at inside
    subst inside
    simp +arith
  | initialized span name value =>
    simp only [Member.parts, List.mem_cons, List.not_mem_nil, or_false] at inside
    rcases inside with rfl | rfl <;> simp +arith

theorem sizeOf_lt_of_mem_parts {e p : Expr} (member : p ∈ e.parts) : sizeOf p < sizeOf e := by
  cases e with
  | identifier | string | number | boolean => cases member
  | template span parts | function span parts | markup span parts | other span parts =>
    have smaller : sizeOf p < sizeOf parts := List.sizeOf_lt_of_mem member
    simp
    omega
  | object span members =>
    have smaller := sizeOf_lt_of_mem_flatMap sizeOf_lt_of_mem_member member
    simp
    omega
  | array span items =>
    have smaller := sizeOf_lt_of_mem_flatMap sizeOf_lt_of_mem_item member
    simp
    omega
  | call span callee types arguments =>
    simp only [parts, List.mem_append, List.mem_cons] at member
    rcases member with (rfl | among) | among
    · simp
      omega
    · have smaller := List.sizeOf_lt_of_mem among
      simp
      omega
    · have smaller := sizeOf_lt_of_mem_flatMap sizeOf_lt_of_mem_item among
      simp
      omega
  | property | chain | nonNull | negation | prefixed | group =>
    rw [parts, List.mem_singleton] at member
    subst member
    simp +arith
  | element span inner rest | instantiation span inner rest | ascription span inner rest =>
    simp only [parts, List.mem_cons] at member
    rcases member with rfl | among
    · simp
      omega
    · have smaller := List.sizeOf_lt_of_mem among
      simp
      omega
  | logical | assignment =>
    simp only [parts, List.mem_cons, List.not_mem_nil, or_false] at member
    rcases member with rfl | rfl <;> simp +arith

/-- One expression ends before another one starts. -/
def Before (e e' : Expr) : Prop := e.span.stop ≤ e'.span.start

/-- Everything inside an expression lies in the order of the text. -/
inductive Ordered : Expr → Prop where
  | intro {e : Expr}
      (within : ∀ p ∈ e.parts, e.span.start ≤ p.span.start ∧ p.span.stop ≤ e.span.stop)
      (apart : e.parts.Pairwise Before)
      (ordered : ∀ p ∈ e.parts, Ordered p) : Ordered e

def Inside : Expr → Expr → Prop := Relation.TransGen fun p e => p ∈ e.parts

/-- An expression is another one or inside it. -/
def Within : Expr → Expr → Prop := Relation.ReflTransGen fun p e => p ∈ e.parts

/-- An expression and all that are inside it have a property. -/
def Everywhere (P : Expr → Prop) (e : Expr) : Prop := ∀ p : Expr, p.Within e → P p

namespace Everywhere

variable {P : Expr → Prop} {e p : Expr}

theorem self (everywhere : e.Everywhere P) : P e := everywhere e .refl

theorem part (everywhere : e.Everywhere P) (inside : p ∈ e.parts) : p.Everywhere P :=
  fun q within => everywhere q (within.tail inside)

theorem intro (self : P e) (parts : ∀ p ∈ e.parts, p.Everywhere P) : e.Everywhere P := by
  intro q within
  rcases Relation.ReflTransGen.cases_tail within with same | ⟨p, within, inside⟩
  · exact same ▸ self
  · exact parts p inside q within

end Everywhere

theorem Inside.sizeOf_lt {p e : Expr} (inside : p.Inside e) : sizeOf p < sizeOf e := by
  induction inside with
  | single member => exact sizeOf_lt_of_mem_parts member
  | tail _ member smaller => exact Nat.lt_trans smaller (sizeOf_lt_of_mem_parts member)

theorem Ordered.span_of_inside {p e : Expr} (ordered : e.Ordered) (inside : p.Inside e) :
    e.span.start ≤ p.span.start ∧ p.span.stop ≤ e.span.stop := by
  induction inside with
  | single member =>
    cases ordered with
    | intro within apart ordered => exact within p member
  | tail inside member ih =>
    cases ordered with
    | intro within apart ordered =>
      have outer := within _ member
      have inner := ih (ordered _ member)
      exact ⟨Nat.le_trans outer.1 inner.1, Nat.le_trans inner.2 outer.2⟩

end Expr

/-- Expressions from one offset up to another one that lie in the order of the text. -/
structure Laid (lo hi : Nat) (es : List Expr) : Prop where
  within : ∀ e ∈ es, lo ≤ e.span.start ∧ e.span.stop ≤ hi
  apart : es.Pairwise Expr.Before
  ordered : ∀ e ∈ es, e.Ordered

namespace Laid

variable {lo hi : Nat} {es later : List Expr} {e : Expr}

theorem nil : Laid lo hi [] := ⟨by simp, .nil, by simp⟩

theorem mono {lo' hi' : Nat} (laid : Laid lo hi es) (low : lo' ≤ lo) (high : hi ≤ hi') :
    Laid lo' hi' es :=
  ⟨fun e member => ⟨Nat.le_trans low (laid.within e member).1,
    Nat.le_trans (laid.within e member).2 high⟩, laid.apart, laid.ordered⟩

theorem sublist (laid : Laid lo hi es) (fewer : later.Sublist es) : Laid lo hi later :=
  ⟨fun e member => laid.within e (fewer.subset member), laid.apart.sublist fewer,
    fun e member => laid.ordered e (fewer.subset member)⟩

theorem append {mid mid' : Nat} (laid : Laid lo mid es) (laid' : Laid mid' hi later)
    (low : lo ≤ mid') (between : mid ≤ mid') (high : mid ≤ hi) : Laid lo hi (es ++ later) where
  within e member := by
    rcases List.mem_append.mp member with first | last
    · exact ⟨(laid.within e first).1, Nat.le_trans (laid.within e first).2 high⟩
    · exact ⟨Nat.le_trans low (laid'.within e last).1, (laid'.within e last).2⟩
  apart := by
    refine List.pairwise_append.mpr ⟨laid.apart, laid'.apart, fun e first e' last => ?_⟩
    calc e.span.stop ≤ mid := (laid.within e first).2
      _ ≤ mid' := between
      _ ≤ e'.span.start := (laid'.within e' last).1
  ordered e member := (List.mem_append.mp member).elim (laid.ordered e) (laid'.ordered e)

theorem node (laid : Laid lo hi e.parts) (start : e.span.start = lo) (stop : e.span.stop = hi) :
    Laid lo hi [e] := by
  subst start stop
  refine ⟨by simp, List.pairwise_singleton _ _, fun e' member => ?_⟩
  obtain rfl := List.mem_singleton.mp member
  exact .intro laid.within laid.apart laid.ordered

theorem opened (laid : Laid lo hi (e :: later)) : Laid lo hi (e.parts ++ later) := by
  obtain ⟨low, high⟩ := laid.within e List.mem_cons_self
  have rest := List.pairwise_cons.mp laid.apart
  cases laid.ordered e List.mem_cons_self with
  | intro within apart ordered =>
    refine ⟨fun p member => ?_, ?_, fun p member => ?_⟩
    · rcases List.mem_append.mp member with inside | behind
      · exact ⟨Nat.le_trans low (within p inside).1, Nat.le_trans (within p inside).2 high⟩
      · exact laid.within p (List.mem_cons_of_mem e behind)
    · refine List.pairwise_append.mpr ⟨apart, rest.2, fun p inside e' behind => ?_⟩
      calc p.span.stop ≤ e.span.stop := (within p inside).2
        _ ≤ e'.span.start := rest.1 e' behind
    · rcases List.mem_append.mp member with inside | behind
      · exact ordered p inside
      · exact laid.ordered p (List.mem_cons_of_mem e behind)

theorem flatMap {inner : Expr → List Expr} (laid : Laid lo hi es)
    (each : ∀ e ∈ es, Laid e.span.start e.span.stop (inner e)) : Laid lo hi (es.flatMap inner) where
  within p member := by
    obtain ⟨e, among, inside⟩ := List.mem_flatMap.mp member
    have outer := laid.within e among
    have inner := (each e among).within p inside
    exact ⟨Nat.le_trans outer.1 inner.1, Nat.le_trans inner.2 outer.2⟩
  apart := by
    refine List.pairwise_flatMap.mpr ⟨fun e among => (each e among).apart, ?_⟩
    refine laid.apart.imp_of_mem fun {e e'} among among' before p inside p' inside' => ?_
    calc p.span.stop ≤ e.span.stop := ((each e among).within p inside).2
      _ ≤ e'.span.start := before
      _ ≤ p'.span.start := ((each e' among').within p' inside').1
  ordered p member := by
    obtain ⟨e, among, inside⟩ := List.mem_flatMap.mp member
    exact (each e among).ordered p inside

end Laid

end DesignLink.Script
