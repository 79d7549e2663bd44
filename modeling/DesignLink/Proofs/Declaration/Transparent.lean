import DesignLink.Proofs.Declaration.Arguments
import DesignLink.Proofs.Declaration.Entries
import DesignLink.Proofs.Declaration.Retold

/-!
Parentheses and type assertions around the values of a mapping. Readers look through all of them
where the value is a plain one, through parentheses alone where it is a piece of code, and through
none where it is a helper call. Main statement: `mappingOf_wrapped`.
-/

namespace DesignLink

namespace Script.Expr

/-- Parentheses and type assertions around an expression, any number of them. -/
inductive Wraps (e : Expr) : Expr → Prop where
  | bare : Wraps e e
  | group {w : Expr} (span : Span) (wraps : Wraps e w) : Wraps e (.group span w)
  | ascription {w : Expr} (span : Span) (types : List Expr) (wraps : Wraps e w) :
    Wraps e (.ascription span w types)

/-- Parentheses around an expression, any number of them. -/
inductive Parenthesized (e : Expr) : Expr → Prop where
  | bare : Parenthesized e e
  | group {w : Expr} (span : Span) (wraps : Parenthesized e w) : Parenthesized e (.group span w)

def isCode : Expr → Bool
  | .group _ inner => inner.isCode
  | .markup _ _ | .function _ _ | .object _ _ | .template _ _ | .property _ _ => true
  | _ => false

end Script.Expr

namespace Declaration

open Script

/-- Parentheses and type assertions that readers look through: none around a call, and no assertion
around a piece of code. -/
structure LooksThrough (e w : Expr) : Prop where
  wraps : e.Wraps w
  call : e.isCall = true → w = e
  code : e.isCode = true → e.Parenthesized w

variable {source source' : Source} {e w : Expr}

/-! What stands in the parentheses. -/

theorem plainValue_of_wraps (wraps : e.Wraps w) : plainValue source w = plainValue source e := by
  induction wraps with
  | bare => rfl
  | group span _ inner => rw [plainValue, inner]
  | ascription span types _ inner => rw [plainValue, inner]

theorem literalValue_of_parenthesized (wraps : e.Parenthesized w) :
    literalValue source w = literalValue source e := by
  induction wraps with
  | bare => rfl
  | group span _ inner => rw [literalValue, inner]

theorem literalValue_of_wraps (wraps : e.Wraps w) :
    e.Parenthesized w ∨ literalValue source w = plainValue source e := by
  induction wraps with
  | bare => exact .inl .bare
  | group span _ inner =>
    refine inner.imp (.group span) fun value => ?_
    rw [literalValue, value]
  | @ascription w span types wraps _ =>
    refine .inr ?_
    calc
      literalValue source (.ascription span w types) =
          plainValue source (.ascription span w types) := rfl
      _ = plainValue source w := by rw [plainValue]
      _ = plainValue source e := plainValue_of_wraps wraps

theorem literalValue_of_not_code : ∀ {e : Expr}, e.isCode = false →
    literalValue source e = plainValue source e
  | .group span inner, plain => by
    rw [literalValue, plainValue]
    exact literalValue_of_not_code plain
  | .markup _ _, plain | .function _ _, plain | .object _ _, plain | .template _ _, plain
  | .property _ _, plain => by cases plain
  | .string _ _, _ | .number _ _, _ | .boolean _ _, _ | .identifier _ _, _ | .negation _ _, _
  | .ascription _ _ _, _ | .array _ _, _ | .call _ _ _ _, _ | .element _ _ _, _ | .chain _ _, _
  | .instantiation _ _ _, _ | .nonNull _ _, _ | .prefixed _ _, _ | .logical _ _ _ _, _
  | .assignment _ _ _ _, _ | .other _ _, _ => rfl

theorem literalValue_of_wraps_not_code (plain : e.isCode = false) (wraps : e.Wraps w) :
    literalValue source w = plainValue source e := by
  have either : e.Parenthesized w ∨ literalValue source w = plainValue source e :=
    literalValue_of_wraps wraps
  rcases either with parenthesized | value
  · rw [literalValue_of_parenthesized parenthesized, literalValue_of_not_code plain]
  · exact value

theorem plainValue_of_code : ∀ {e : Expr}, e.isCode = true → Refused (plainValue source e)
  | .group span inner, code => by
    rw [plainValue]
    exact plainValue_of_code code
  | .markup _ _, _ | .function _ _, _ | .object _ _, _ | .template _ _, _ | .property _ _, _ =>
    refused_complain rfl

theorem plainValue_of_call (call : e.isCall = true) : Refused (plainValue source e) := by
  cases e with
  | call => exact refused_complain rfl
  | _ => cases call

theorem isCode_of_call (call : e.isCall = true) : e.isCode = false := by
  cases e with
  | call => rfl
  | _ => cases call

/-! What readers look through. -/

theorem isCall_of_wraps (wraps : e.Wraps w) (around : w ≠ e) : w.isCall = false := by
  cases wraps with
  | bare => exact absurd rfl around
  | group => rfl
  | ascription => rfl

theorem valueOf_of_not_call (other : e.isCall = false) :
    valueOf source e = (literalValue source e).map .literal := by
  rw [valueOf, other, if_neg Bool.false_ne_true]

theorem valueOf_of_looksThrough (through : LooksThrough e w) :
    valueOf source w = valueOf source e := by
  by_cases same : w = e
  case pos => rw [same]
  case neg =>
    have noCall : e.isCall = false := Bool.eq_false_iff.mpr fun call => same (through.call call)
    have value : literalValue source w = literalValue source e := by
      cases code : e.isCode with
      | true => exact literalValue_of_parenthesized (through.code code)
      | false =>
        rw [literalValue_of_wraps_not_code code through.wraps, literalValue_of_not_code code]
    rw [valueOf_of_not_call noCall, valueOf_of_not_call (isCall_of_wraps through.wraps same), value]

theorem valueOf_of_not_looksThrough (wraps : e.Wraps w) (other : ¬ LooksThrough e w) :
    Refused (valueOf source w) := by
  have around : w ≠ e := fun same => other (same ▸ ⟨.bare, fun _ => rfl, fun _ => .bare⟩)
  have refused : Refused (literalValue source w) := by
    cases call : e.isCall with
    | true =>
      rw [literalValue_of_wraps_not_code (isCode_of_call call) wraps]
      exact plainValue_of_call call
    | false =>
      have code : ¬ (e.isCode = true → e.Parenthesized w) := by
        refine fun code => other ⟨wraps, fun isCall => ?_, code⟩
        cases call.symm.trans isCall
      obtain ⟨isCode, bare⟩ := Classical.not_imp.mp code
      rw [(literalValue_of_wraps wraps).resolve_left bare]
      exact plainValue_of_code isCode
  obtain ⟨problem, refused, kind⟩ := refused
  rw [valueOf_of_not_call (isCall_of_wraps wraps around), refused]
  exact ⟨problem, rfl, kind⟩

/-! Mappings. -/

/-- A member that stands elsewhere in another source, where its value may have got parentheses and
type assertions that readers look through. -/
inductive Rewrapped (source source' : Source) : Member → Member → Prop where
  | field {f g : Span → Span} {key : Key} {e w : Expr} (span span' : Span) (computed : Bool)
      (retold : Retold f source source' e) (through : LooksThrough (e.moved f) w) :
    Rewrapped source source' (.field span key computed e) (.field span' (key.moved g) computed w)
  | spread (span span' : Span) (e e' : Expr) :
    Rewrapped source source' (.spread span e) (.spread span' e')
  | initialized (span span' : Span) (name name' e e' : Expr) :
    Rewrapped source source' (.initialized span name e) (.initialized span' name' e')

theorem valuesOf_rewrapped {members members' : List Member}
    (rewrapped : List.Forall₂ (Rewrapped source source') members members') :
    ∀ before : ValueMapping, (valuesOf source' before members').toOption =
      (valuesOf source before members).toOption := by
  induction rewrapped with
  | nil => exact fun _ => rfl
  | cons first _ rest =>
    intro before
    cases first with
    | spread | initialized => rfl
    | field span span' computed retold through =>
      rw [valuesOf_field, valuesOf_field, toOption_bind, toOption_bind, keyText_moved]
      refine congrArg _ (funext fun name => ?_)
      rw [toOption_bind, toOption_bind, valueOf_of_looksThrough through, valueOf_moved retold]
      refine congrArg _ (funext fun value => ?_)
      split
      case isTrue => rfl
      case isFalse => exact rest _

theorem mappingOf_of_refused {members : List Member} {span : Span} {key : Key} {computed : Bool}
    (among : .field span key computed e ∈ members) (refused : Refused (valueOf source e)) :
    (mappingOf source members).toOption = none := by
  cases read : mappingOf source members with
  | error problem => rfl
  | ok values =>
    obtain ⟨gives, -⟩ := mappingOf_eq_ok_iff.mp read
    have each : ∀ member ∈ members, ∃ entry, Gives source member entry :=
      ((List.forall₂_and_left _ _).mp (gives.imp fun _ entry given => ⟨⟨entry, given⟩, given⟩)).1
    obtain ⟨entry, span', key', computed', e', same, -, given⟩ := each _ among
    cases same
    obtain ⟨problem, refused, -⟩ := refused
    cases given.symm.trans refused

/-- A mapping that is told again, with parentheses and type assertions around its values that
readers look through, is accepted or refused as it was, with the same literal or helper under each
key. With any others around a value the mapping is refused. -/
theorem mappingOf_wrapped (source source' : Source) :
    (∀ members members', List.Forall₂ (Rewrapped source source') members members' →
      (mappingOf source' members').toOption = (mappingOf source members).toOption) ∧
    ∀ members span key computed e w, .field span key computed w ∈ members → e.Wraps w →
      ¬ LooksThrough e w → (mappingOf source members).toOption = none := by
  refine ⟨fun members members' rewrapped => valuesOf_rewrapped rewrapped [], ?_⟩
  intro members span key computed e w among wraps other
  exact mappingOf_of_refused among (valueOf_of_not_looksThrough wraps other)

/-- A string and a path, bare and in parentheses and a type assertion. -/
def bareValues : Source := .ofString "a.tsx" "\x7b a: \"v\", b: x.y \x7d"

def wrappedValues : Source := .ofString "a.tsx" "\x7b a: ((\"v\") as T), b: ((x.y)) \x7d"

def bareMembers : List Member :=
  [.field ⟨2, 8⟩ (.name ⟨2, 3⟩ "a") false (.string ⟨5, 8⟩ "v"),
    .field ⟨10, 16⟩ (.name ⟨10, 11⟩ "b") false (.property ⟨13, 16⟩ (.identifier ⟨13, 14⟩ "x"))]

def wrappedMembers : List Member :=
  [.field ⟨2, 17⟩ (.name ⟨2, 3⟩ "a") false
      (.group ⟨5, 17⟩ (.ascription ⟨6, 16⟩ (.group ⟨6, 11⟩ (.string ⟨7, 10⟩ "v")) [])),
    .field ⟨19, 29⟩ (.name ⟨19, 20⟩ "b") false
      (.group ⟨22, 29⟩ (.group ⟨23, 28⟩ (.property ⟨24, 27⟩ (.identifier ⟨24, 25⟩ "x"))))]

/-- A span that stands further on in the text. -/
def shifted (by_ : Nat) (span : Span) : Span := ⟨span.start + by_, span.stop + by_⟩

def wrappedCall : Source := .ofString "a.tsx" "\x7b a: (figma.string(\"A\")) \x7d"

def bareCall : Expr :=
  .call ⟨6, 23⟩ (.property ⟨6, 18⟩ (.identifier ⟨6, 11⟩ "figma")) []
    [.value (.string ⟨19, 22⟩ "A")]

def memberWith (e : Expr) : Member := .field ⟨2, 24⟩ (.name ⟨2, 3⟩ "a") false e

theorem mappingOf_wrapped_path :
    (List.Forall₂ (Rewrapped bareValues wrappedValues) bareMembers wrappedMembers ∧
      (mappingOf wrappedValues wrappedMembers).toOption = some [("a", .literal (.string "v")),
        ("b", .literal (.snippet ⟨.identifier, "x.y"⟩))]) ∧
    (mappingOf wrappedCall [memberWith (.group ⟨5, 24⟩ bareCall)]).toOption = none := by
  have text : bareValues.textOf ⟨13, 16⟩ = "x.y" := by decide +kernel
  have bare : mappingOf bareValues bareMembers = .ok [("a", .literal (.string "v")),
      ("b", .literal (.snippet ⟨.identifier, "x.y"⟩))] := by
    rw [← text]
    rfl
  have string : Retold (shifted 2) bareValues wrappedValues (.string ⟨5, 8⟩ "v") :=
    .intro (by decide +kernel) nofun
  have path : Retold (shifted 11) bareValues wrappedValues
      (.property ⟨13, 16⟩ (.identifier ⟨13, 14⟩ "x")) := by
    refine .intro (by decide +kernel) fun p inside => ?_
    obtain rfl := List.mem_singleton.mp inside
    exact .intro (by decide +kernel) nofun
  have rewrapped : List.Forall₂ (Rewrapped bareValues wrappedValues) bareMembers
      wrappedMembers :=
    .cons (.field (g := shifted 0) _ _ _ string
        ⟨.group _ (.ascription _ _ (.group _ .bare)), nofun, nofun⟩)
      (.cons (.field (g := shifted 9) _ _ _ path
        ⟨.group _ (.group _ .bare), nofun, fun _ => .group _ (.group _ .bare)⟩) .nil)
  refine ⟨⟨rewrapped, ?_⟩, ?_⟩
  · rw [(mappingOf_wrapped bareValues wrappedValues).1 _ _ rewrapped, bare]
    rfl
  · refine (mappingOf_wrapped wrappedCall wrappedCall).2 _ _ _ _ _ _ List.mem_cons_self
      (.group _ .bare) fun through => ?_
    cases through.call rfl

/-- A call with one value in its mapping. -/
def enumText (value : String) : String := "figma.enum(\"x\", \x7b a: " ++ value ++ " \x7d)"

/-- In parentheses a call is refused that is accepted without them, and under a type assertion a
path is. -/
theorem mappingOf_parenthesized_call :
    ((mappingOf wrappedCall [memberWith bareCall]).toOption = some [("a", .helper (.string "A"))] ∧
      (mappingOf wrappedCall [memberWith (.group ⟨5, 24⟩ bareCall)]).toOption = none) ∧
    ((readHelper "inline.tsx" (enumText "figma.string(\"A\")")).isOk = true ∧
      (readHelper "inline.tsx" (enumText "(figma.string(\"A\"))")).isOk = false) ∧
    (readHelper "inline.tsx" (enumText "x.y")).isOk = true ∧
      (readHelper "inline.tsx" (enumText "x.y as T")).isOk = false := by
  have kind : HelperKind.ofCall? (wrappedCall.textOf ⟨6, 23⟩) = some .string := by decide +kernel
  have called : helperOf wrappedCall bareCall = .ok (.string "A") := by
    rw [bareCall, helperOf.eq_def]
    dsimp only
    rw [kind]
    rfl
  have valued : valueOf wrappedCall bareCall = .ok (.helper (.string "A")) :=
    valueOf_eq_helper_iff.mpr ⟨rfl, called⟩
  refine ⟨⟨?_, rfl⟩, ⟨by decide +kernel, by decide +kernel⟩, by decide +kernel, by decide +kernel⟩
  rw [mappingOf, memberWith, valuesOf_field, valued]
  rfl

end Declaration

end DesignLink
