import DesignLink.Declaration.HelperCall
import DesignLink.Proofs.Results

/-!
The arguments of helper calls. A call is accepted only if it begins with the arguments of its
helper's grammar, and any other beginning is an invalid argument; what stands behind these
arguments is not looked at. Main statement: `helperOf_arguments`.
-/

namespace DesignLink

open Script

namespace HelperKind

def capacity : HelperKind → Nat
  | boolean | enum | nestedProps => 2
  | string | swap | children | className | textContent => 1

/-- The arguments of a helper's grammar. -/
inductive Takes : HelperKind → List Item → Prop where
  | boolean (span : Span) (property : String) : Takes .boolean [.value (.string span property)]
  | booleanValues (span object : Span) (property : String) (members : List Member) :
    Takes .boolean [.value (.string span property), .value (.object object members)]
  | enum (span object : Span) (property : String) (members : List Member) :
    Takes .enum [.value (.string span property), .value (.object object members)]
  | string (span : Span) (property : String) : Takes .string [.value (.string span property)]
  | swap (span : Span) (property : String) : Takes .swap [.value (.string span property)]
  | layer (span : Span) (layer : String) : Takes .children [.value (.string span layer)]
  | layers (span : Span) (item : Item) (items : List Item) :
    Takes .children [.value (.array span (item :: items))]
  | nestedProps (span object : Span) (layer : String) (members : List Member) :
    Takes .nestedProps [.value (.string span layer), .value (.object object members)]
  | className (span : Span) (items : List Item) : Takes .className [.value (.array span items)]
  | textContent (span : Span) (layer : String) : Takes .textContent [.value (.string span layer)]

theorem Takes.length {kind : HelperKind} {arguments : List Item} (takes : kind.Takes arguments) :
    arguments.length = kind.capacity ∨ kind = .boolean ∧ arguments.length = 1 := by
  cases takes with
  | boolean => exact .inr ⟨rfl, rfl⟩
  | _ => exact .inl rfl

end HelperKind

namespace Declaration

variable {α β : Type} {source : Source} {span : Span} {callee : Expr} {types : List Expr}
  {arguments : List Item} {kind : HelperKind}

def Refused (result : Except Problem α) : Prop :=
  ∃ problem, result = .error problem ∧ problem.kind = .invalidArgument

theorem Refused.bind {x : Except Problem α} (refused : Refused x) (f : α → Except Problem β) :
    Refused (x >>= f) := by
  obtain ⟨problem, rfl, same⟩ := refused
  exact ⟨problem, rfl, same⟩

theorem refused_complain {complaint : Complaint} (same : complaint.kind = .invalidArgument) :
    Refused (source.complain complaint span : Except Problem α) :=
  ⟨_, rfl, same⟩

/-- A call without a string literal in front is refused, and so is one that is refused behind it. -/
theorem refused_of_first {complaint : Complaint} (same : complaint.kind = .invalidArgument)
    {f : String → Except Problem β}
    (behind : ∀ place text rest, arguments = .value (.string place text) :: rest →
      Refused (f text)) :
    Refused (stringArgument source span arguments 0 complaint >>= f) := by
  rw [stringArgument]
  split
  case h_1 place text found =>
    match arguments, found with
    | _ :: rest, rfl => exact behind place text rest rfl
  case h_2 => exact (refused_complain same).bind f

theorem ofCall?_of_helperOf {helper : Helper}
    (ok : helperOf source (.call span callee types arguments) = .ok helper) :
    ∃ kind, HelperKind.ofCall? (source.textOf span) = some kind := by
  rw [helperOf.eq_def] at ok
  dsimp only at ok
  cases known : HelperKind.ofCall? (source.textOf span) with
  | some kind => exact ⟨kind, rfl⟩
  | none =>
    rw [known] at ok
    cases ok

theorem helperOf_take (known : HelperKind.ofCall? (source.textOf span) = some kind) :
    helperOf source (.call span callee types (arguments.take kind.capacity)) =
      helperOf source (.call span callee types arguments) := by
  rw [helperOf.eq_def, helperOf.eq_def source (.call span callee types arguments)]
  dsimp only
  rw [known]
  -- Only the shape of the last argument that a helper takes decides between the branches.
  match arguments with
  | [] | [_] => cases kind <;> rfl
  | first :: second :: rest =>
    cases kind with
    | boolean | enum | nestedProps =>
      cases second with
      | value e => cases e <;> rfl
      | _ => rfl
    | className =>
      cases first with
      | value e => cases e <;> rfl
      | _ => rfl
    | _ => rfl

/-- A call that does not begin with the arguments of its helper's grammar is refused. -/
theorem refused_of_not_takes (known : HelperKind.ofCall? (source.textOf span) = some kind)
    (other : ¬ kind.Takes (arguments.take kind.capacity)) :
    Refused (helperOf source (.call span callee types arguments)) := by
  rw [helperOf.eq_def]
  dsimp only
  rw [known]
  cases kind with
  | string =>
    refine refused_of_first rfl fun place text rest begins => ?_
    exact absurd (.string place text) (begins ▸ other)
  | swap =>
    refine refused_of_first rfl fun place text rest begins => ?_
    exact absurd (.swap place text) (begins ▸ other)
  | textContent =>
    refine refused_of_first rfl fun place text rest begins => ?_
    exact absurd (.textContent place text) (begins ▸ other)
  | boolean =>
    refine refused_of_first rfl fun place text rest begins => ?_
    subst begins
    split
    case h_1 object members _ shape =>
      cases shape
      exact absurd (.booleanValues place object text members) other
    case h_2 => exact refused_complain rfl
    case h_3 short =>
      cases rest with
      | nil => exact absurd (.boolean place text) other
      | cons second rest => exact absurd rfl (short _ second rest)
  | enum =>
    refine refused_of_first rfl fun place text rest begins => ?_
    subst begins
    split
    case h_1 object members _ shape =>
      cases shape
      exact absurd (.enum place object text members) other
    case h_2 => exact refused_complain rfl
  | nestedProps =>
    refine refused_of_first rfl fun place text rest begins => ?_
    subst begins
    split
    case h_1 object members _ shape =>
      cases shape
      exact absurd (.nestedProps place object text members) other
    case h_2 => exact refused_complain rfl
  | className =>
    dsimp only
    split
    case h_1 array items _ => exact absurd (.className array items) other
    case h_2 => exact refused_complain rfl
  | children =>
    refine Refused.bind ?_ _
    rw [childLayers]
    split
    case h_1 place layer first =>
      match arguments, first with
      | _ :: _, rfl => exact absurd (.layer place layer) other
    case h_2 array item items first =>
      match arguments, first with
      | _ :: _, rfl => exact absurd (.layers array item items) other
    case h_3 => exact refused_complain rfl

/-- An accepted call begins with the arguments of its helper's grammar, and these alone are read: if
nothing stands behind them, they are all its arguments. A call that begins otherwise is refused. -/
theorem helperOf_arguments (source : Source) (span : Span) (callee : Expr) (types : List Expr)
    (arguments : List Item) :
    (∀ helper, helperOf source (.call span callee types arguments) = .ok helper →
      ∃ kind, HelperKind.ofCall? (source.textOf span) = some kind ∧
        kind.Takes (arguments.take kind.capacity) ∧
        helperOf source (.call span callee types (arguments.take kind.capacity)) = .ok helper ∧
        (arguments.length ≤ kind.capacity → kind.Takes arguments ∧
          (arguments.length = kind.capacity ∨ kind = .boolean ∧ arguments.length = 1))) ∧
    ∀ kind, HelperKind.ofCall? (source.textOf span) = some kind →
      ¬ kind.Takes (arguments.take kind.capacity) →
        ∃ problem, helperOf source (.call span callee types arguments) = .error problem ∧
          problem.kind = .invalidArgument := by
  refine ⟨fun helper ok => ?_, fun kind known other => refused_of_not_takes known other⟩
  obtain ⟨kind, known⟩ := ofCall?_of_helperOf ok
  have takes : kind.Takes (arguments.take kind.capacity) := by
    refine Classical.byContradiction fun other => ?_
    obtain ⟨problem, refused, -⟩ := refused_of_not_takes known other
    cases ok.symm.trans refused
  refine ⟨kind, known, takes, (helperOf_take known).trans ok, fun within => ?_⟩
  rw [List.take_of_length_le within] at takes
  exact ⟨takes, takes.length⟩

/-- The call of `figma.textContent` that is the whole of a text. -/
def contentCall (stop : Nat) (arguments : List Item) : Expr :=
  .call ⟨1, stop⟩ (.property ⟨1, 18⟩ (.identifier ⟨1, 6⟩ "figma")) [] arguments

theorem helperOf_contentCall {stop : Nat} {place : Span} {text : String} {rest : List Item}
    (known : HelperKind.ofCall? (source.textOf ⟨1, stop⟩) = some .textContent) :
    helperOf source (contentCall stop (.value (.string place text) :: rest)) =
      .ok (.textContent text) := by
  rw [contentCall, helperOf.eq_def]
  dsimp only
  rw [known]
  rfl

theorem helperOf_arguments_one :
    (helperOf (wrapped "inline.tsx" "figma.textContent(\"A\")")
        (contentCall 23 [.value (.string ⟨19, 22⟩ "A")]) = .ok (.textContent "A") ∧
      HelperKind.textContent.Takes [.value (.string ⟨19, 22⟩ "A")]) ∧
    ∃ problem, helperOf (wrapped "inline.tsx" "figma.textContent()") (contentCall 20 []) =
      .error problem ∧ problem.kind = .invalidArgument := by
  have one : HelperKind.ofCall?
      ((wrapped "inline.tsx" "figma.textContent(\"A\")").textOf ⟨1, 23⟩) = some .textContent := by
    decide +kernel
  have none_ : HelperKind.ofCall?
      ((wrapped "inline.tsx" "figma.textContent()").textOf ⟨1, 20⟩) = some .textContent := by
    decide +kernel
  constructor
  · have accepted : helperOf (wrapped "inline.tsx" "figma.textContent(\"A\")")
        (contentCall 23 [.value (.string ⟨19, 22⟩ "A")]) = .ok (.textContent "A") :=
      helperOf_contentCall one
    obtain ⟨kind, known, -, -, exact_⟩ := (helperOf_arguments _ _ _ _ _).1 _ accepted
    cases one.symm.trans known
    exact ⟨accepted, (exact_ (Nat.le_refl 1)).1⟩
  · refine (helperOf_arguments _ _ _ _ _).2 .textContent none_ fun takes => ?_
    cases takes

/-- The arguments of a call with a second one, which no grammar of a single text has. -/
def twoTexts : List Item := [.value (.string ⟨19, 22⟩ "A"), .value (.string ⟨24, 27⟩ "B")]

theorem helperOf_further_argument :
    HelperKind.ofCall? ((wrapped "inline.tsx" "figma.textContent(\"A\", \"B\")").textOf ⟨1, 28⟩) =
      some .textContent ∧
    ¬ HelperKind.textContent.Takes twoTexts ∧
    helperOf (wrapped "inline.tsx" "figma.textContent(\"A\", \"B\")") (contentCall 28 twoTexts) =
      .ok (.textContent "A") ∧
    (readHelper "inline.tsx" "figma.textContent(\"A\", \"B\")").isOk = true := by
  have two : HelperKind.ofCall?
      ((wrapped "inline.tsx" "figma.textContent(\"A\", \"B\")").textOf ⟨1, 28⟩) =
        some .textContent := by
    decide +kernel
  have single : ¬ HelperKind.textContent.Takes twoTexts := by
    intro takes
    cases takes
  exact ⟨two, single, helperOf_contentCall two, by decide +kernel⟩

end Declaration

end DesignLink
