import DesignLink.Declaration.Connections
import DesignLink.Proofs.Declaration.Declared

/-!
Where problems come from: whatever is wrong with a declaration, the problem names the file that the
declaration stands in.
-/

namespace DesignLink.Declaration

open Script

variable {α β γ : Type}

/-- All that can go wrong is a problem of the file. -/
def Blames (file : String) (x : Except Problem α) : Prop :=
  ∀ problem, x = .error problem → problem.file = file

section Steps

variable {file : String}

theorem blames_ok (a : α) : Blames file (.ok a) := nofun

theorem blames_pure (a : α) : Blames file (pure a : Except Problem α) := nofun

theorem Blames.bind {x : Except Problem α} {f : α → Except Problem β} (first : Blames file x)
    (later : ∀ a, Blames file (f a)) : Blames file (x >>= f) := by
  intro problem wrong
  cases x with
  | error found => exact first problem (congrArg _ (Except.error.inj wrong))
  | ok a => exact later a problem wrong

theorem Blames.map {x : Except Problem α} (first : Blames file x) (f : α → β) :
    Blames file (x.map f) := by
  intro problem wrong
  cases x with
  | error found => exact first problem (congrArg _ (Except.error.inj wrong))
  | ok a => cases wrong

theorem blames_ite {p : Prop} [Decidable p] {x y : Except Problem α} (first : Blames file x)
    (second : Blames file y) : Blames file (if p then x else y) := by
  split
  · exact first
  · exact second

theorem blames_foldlM {f : β → γ → Except Problem β} (each : ∀ b c, Blames file (f b c)) :
    ∀ (items : List γ) (b : β), Blames file (items.foldlM f b)
  | [], b => blames_ok b
  | c :: rest, b => by
    rw [List.foldlM_cons]
    exact (each b c).bind fun b' => blames_foldlM each rest b'

end Steps

variable (source : Source)

theorem blames_complain (complaint : Complaint) (span : Span) :
    Blames source.file (source.complain complaint span : Except Problem α) := by
  rintro _ ⟨⟩
  rfl

/-! Values and the arguments of helpers. -/

theorem blames_refuse (e : Expr) : Blames source.file (refuse source e : Except Problem α) :=
  blames_complain source _ _

theorem blames_plainValue (e : Expr) : Blames source.file (plainValue source e) := by
  fun_induction plainValue source e with
  | case1 | case2 | case3 | case4 | case6 => exact blames_ok _
  | case5 | case9 => exact blames_refuse source _
  | case7 _ _ ih | case8 _ _ _ ih => exact ih

theorem blames_literalValue (e : Expr) : Blames source.file (literalValue source e) := by
  fun_induction literalValue source e with
  | case1 _ _ ih => exact ih
  | case2 | case3 | case4 | case5 | case6 => exact blames_ok _
  | case7 => exact blames_plainValue source _

theorem blames_stringArgument (span : Span) (arguments : List Item) (index : Nat)
    (complaint : Complaint) :
    Blames source.file (stringArgument source span arguments index complaint) := by
  unfold stringArgument
  split
  · exact blames_ok _
  · exact blames_complain source _ _

theorem blames_propertyArgument (span : Span) (arguments : List Item) (kind : HelperKind) :
    Blames source.file (propertyArgument source span arguments kind) :=
  blames_stringArgument source span arguments 0 _

theorem blames_keyText (key : Key) : Blames source.file (keyText source key) := by
  unfold keyText
  split
  · exact blames_ok _
  · exact blames_ok _
  · exact blames_ok _
  · exact blames_complain source _ _

theorem blames_layerItems (array : Span) :
    ∀ items : List Item, Blames source.file (layerItems source array items)
  | [] => blames_ok _
  | .value e :: rest => by
    cases e with
    | string span layer =>
      have later := (blames_layerItems array rest).bind fun layers =>
        blames_pure (layer :: layers)
      exact blames_ite ((blames_complain source _ _).bind fun _ => later) later
    | _ => exact blames_complain source _ _
  | .spread _ _ :: _ | .hole _ :: _ => blames_complain source _ _

theorem blames_childLayers (span : Span) (arguments : List Item) :
    Blames source.file (childLayers source span arguments) := by
  unfold childLayers
  split
  · exact blames_ok _
  · exact blames_layerItems source _ _
  · exact blames_complain source _ _

theorem blames_checkBoolean (span : Span) (values : ValueMapping) :
    Blames source.file (checkBoolean source span values) := by
  unfold checkBoolean
  split
  · exact blames_complain source _ _
  · exact blames_ok _

theorem blames_checkEnum (span : Span) (values : ValueMapping) :
    Blames source.file (checkEnum source span values) :=
  blames_ite (blames_complain source _ _) (blames_ok _)

theorem blames_helpersOnly (values : ValueMapping) (members : List Member) :
    Blames source.file (helpersOnly source values members) := by
  fun_induction helpersOnly source values members with
  | case1 _ _ _ _ _ ih => exact ih.bind fun _ => blames_pure _
  | case2 => exact blames_complain source _ _
  | case3 => exact blames_ok _

/-! Helpers, entries and class names, along the expressions that they are read from. -/

mutual

theorem blames_helperOf : ∀ e : Expr, Blames source.file (helperOf source e)
  | .call span callee types arguments => by
    unfold helperOf
    split
    · exact blames_complain source _ _
    · refine (blames_propertyArgument source span arguments _).bind fun property => ?_
      split
      · exact (blames_valuesOf [] _).bind fun values =>
          (blames_checkBoolean source _ values).bind fun _ => blames_pure _
      · exact blames_complain source _ _
      · exact blames_pure _
    · refine (blames_propertyArgument source span arguments _).bind fun property => ?_
      split
      · exact (blames_valuesOf [] _).bind fun values =>
          (blames_checkEnum source _ values).bind fun _ => blames_pure _
      · exact blames_complain source _ _
    · exact (blames_propertyArgument source span arguments _).bind fun _ => blames_pure _
    · exact (blames_propertyArgument source span arguments _).bind fun _ => blames_pure _
    · exact (blames_childLayers source span arguments).bind fun _ => blames_pure _
    · refine (blames_stringArgument source span arguments 0 _).bind fun layer => ?_
      split
      · exact (blames_valuesOf [] _).bind fun values =>
          (blames_helpersOnly source values _).bind fun _ => blames_pure _
      · exact blames_complain source _ _
    · split
      · exact (blames_partsOf _).bind fun _ => blames_pure _
      · exact blames_complain source _ _
    · exact (blames_stringArgument source span arguments 0 _).bind fun _ => blames_pure _
  | .identifier _ _ | .string _ _ | .number _ _ | .boolean _ _ | .template _ _ | .object _ _
  | .array _ _ | .function _ _ | .markup _ _ | .property _ _ | .element _ _ _ | .chain _ _
  | .instantiation _ _ _ | .nonNull _ _ | .negation _ _ | .prefixed _ _ | .logical _ _ _ _
  | .ascription _ _ _ | .assignment _ _ _ _ | .group _ _ | .other _ _ =>
    blames_complain source _ _

theorem blames_valuesOf : ∀ (before : ValueMapping) (members : List Member),
    Blames source.file (valuesOf source before members)
  | _, [] => blames_ok _
  | _, .spread _ _ :: _ | _, .initialized _ _ _ :: _ => blames_complain source _ _
  | before, .field span key computed e :: rest => by
    have value : Blames source.file (valueOf source e) :=
      blames_ite ((blames_helperOf e).map _) ((blames_literalValue source e).map _)
    rw [valuesOf_field]
    exact (blames_keyText source key).bind fun key => value.bind fun given =>
      blames_ite (blames_complain source _ _) (blames_valuesOf _ rest)

theorem blames_partsOf : ∀ items : List Item, Blames source.file (partsOf source items)
  | [] => blames_ok _
  | .value e :: rest => by
    by_cases isString : ∃ span text, e = .string span text
    · obtain ⟨span, text, rfl⟩ := isString
      exact (blames_partsOf rest).bind fun _ => blames_pure _
    · rw [partsOf_value source rest fun span text same => isString ⟨span, text, same⟩]
      exact (blames_ite ((blames_helperOf e).map _) (blames_ok _)).bind fun found =>
        (blames_partsOf rest).bind fun others => blames_ok _
  | .spread _ _ :: rest | .hole _ :: rest => blames_partsOf rest

end

/-! Connections. -/

theorem blames_propsOf (members : List Member) : Blames source.file (propsOf source members) :=
  (blames_valuesOf source [] members).bind fun values => blames_helpersOnly source values members

theorem blames_importsOf (items : List Item) : Blames source.file (importsOf source items) := by
  fun_induction importsOf source items with
  | case1 => exact blames_ok _
  | case2 _ _ _ ih => exact ih.bind fun _ => blames_pure _
  | case3 => exact blames_complain source _ _

theorem blames_takeArgument (found : ConnectArguments) (item : Item) :
    Blames source.file (takeArgument source found item) := by
  have wrong : Blames source.file
      (source.complain .connectArgument item.span : Except Problem ConnectArguments) :=
    blames_complain source _ _
  unfold takeArgument
  dsimp only
  split
  · exact blames_ite (blames_ok _) wrong
  · exact blames_ite (blames_ok _) wrong
  · exact blames_ite (blames_ok _) wrong
  · exact blames_ok _
  · exact wrong

theorem blames_takeSetting (connection : Connection) (member : Member) :
    Blames source.file (takeSetting source connection member) := by
  unfold takeSetting
  split
  · split
    · exact (blames_propsOf source _).bind fun _ => blames_pure _
    · exact blames_complain source _ _
    · exact (blames_valuesOf source [] _).bind fun _ => blames_pure _
    · exact blames_ok _
    · exact (blames_importsOf source _).bind fun _ => blames_pure _
    · exact blames_ok _
  · exact blames_ok _

theorem blames_connectionOf (span : Span) (arguments : List Item) :
    Blames source.file (connectionOf source span arguments) := by
  refine (blames_foldlM (blames_takeArgument source) arguments _).bind fun found => ?_
  split
  · exact blames_complain source _ _
  · exact blames_foldlM (blames_takeSetting source) found.config _

theorem blames_connectionOfCall (e : Expr) : Blames source.file (connectionOfCall source e) := by
  unfold connectionOfCall
  split
  · exact blames_connectionOf source _ _
  · exact blames_complain source _ _

end DesignLink.Declaration
