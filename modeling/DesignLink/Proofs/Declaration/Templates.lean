import DesignLink.Proofs.Declaration.Entries
import DesignLink.Proofs.Declaration.Transparent
import DesignLink.Proofs.Layout.Modules

/-!
Template literals as values of mappings. A template stands between two back quotes, and its code is
recorded without any: written between back quotes again it is the template as it stands in the
source exactly if no back quote is inside it, neither escaped nor around a template in it. Main
statement: `mappingOf_template`.
-/

namespace DesignLink

namespace Declaration

open Script

variable {source : Source} {module : Module} {e : Expr} {span : Span} {parts : List Expr}

/-! Texts without back quotes. -/

theorem toList_withoutBackquotes (text : String) :
    (withoutBackquotes text).toList = text.toList.filter (·.toNat ≠ 0x60) :=
  String.toList_ofList

theorem withoutBackquotes_quoted (inner : String) :
    withoutBackquotes ("`" ++ inner ++ "`") = withoutBackquotes inner := by
  simp [withoutBackquotes, String.toList_append]

theorem isBackquote_iff (c : Char) : c.toNat = 0x60 ↔ c = '\x60' :=
  ⟨fun same => Char.toNat_inj.mp same, fun same => congrArg Char.toNat same⟩

theorem withoutBackquotes_eq_iff {inner : String} :
    withoutBackquotes inner = inner ↔ '\x60' ∉ inner.toList := by
  rw [← String.toList_inj, toList_withoutBackquotes, List.filter_eq_self]
  constructor
  · intro none_ among
    simpa using none_ '\x60' among
  · intro none_ c among
    refine decide_eq_true fun same => none_ ?_
    rwa [← (isBackquote_iff c).mp same]

/-- Written between back quotes, a text without its back quotes is the text between them if it had
none. -/
theorem print_templateString_iff {inner : String} :
    (Literal.snippet ⟨.templateString, withoutBackquotes inner⟩).print = "`" ++ inner ++ "`" ↔
      '\x60' ∉ inner.toList := by
  rw [← withoutBackquotes_eq_iff, Literal.print, String.append_left_inj, String.append_right_inj]

/-! Templates of a module. -/

theorem exists_inner (read : Module.read? source.text = some module)
    (holds : module.Holds (.template span parts)) :
    ∃ inner, source.textOf span = "`" ++ inner ++ "`" := by
  obtain ⟨inner, text⟩ := Module.written_of_read? read holds
  refine ⟨String.ofList inner, text.trans (String.toList_inj.mp ?_)⟩
  simp

theorem within_of_parenthesized {inner e : Expr} (parenthesized : inner.Parenthesized e) :
    inner.Within e := by
  induction parenthesized with
  | bare => exact .refl
  | group span _ ih => exact ih.tail (List.mem_singleton_self _)

/-- A member with a template as its value, in parentheses or not, gives its code without back
quotes, which is verbatim if there was none between the outer ones. -/
def KeepsTemplate (source : Source) (member : Member) (entry : String × Value) : Prop :=
  ∀ fieldSpan key computed e span parts, member = .field fieldSpan key computed e →
    (Expr.template span parts).Parenthesized e →
    ∃ inner, source.textOf span = "`" ++ inner ++ "`" ∧
      ∃ snippet : Snippet, entry.2 = .literal (.snippet snippet) ∧
        snippet = ⟨.templateString, withoutBackquotes inner⟩ ∧
        ((Literal.snippet snippet).print = source.textOf span ↔ '\x60' ∉ inner.toList)

theorem valueOf_template (parenthesized : (Expr.template span parts).Parenthesized e) :
    valueOf source e = .ok (.literal (.snippet
      ⟨.templateString, withoutBackquotes (source.textOf span)⟩)) := by
  have noCall : e.isCall = false := by cases parenthesized <;> rfl
  rw [valueOf_of_not_call noCall, literalValue_of_parenthesized parenthesized]
  rfl

theorem holds_of_member {fieldSpan objectSpan : Span} {key : Key} {computed : Bool} {p : Expr}
    {members : List Member} (holds : module.Holds (.object objectSpan members))
    (among : .field fieldSpan key computed e ∈ members) (within : p.Within e) : module.Holds p := by
  obtain ⟨outer, part, above⟩ := Module.holds_iff.mp holds
  have value : e ∈ (Expr.object objectSpan members).parts :=
    List.mem_flatMap.mpr ⟨_, among, by simp [Member.parts]⟩
  exact Module.holds_iff.mpr ⟨outer, part, (within.tail value).trans above⟩

/-- Each template among the values of an object literal is recorded as its code without back
quotes. Between back quotes again, this is the template as it stands in the source exactly if there
was no back quote inside. -/
theorem mappingOf_template (source : Source) (module : Module)
    (read : Module.read? source.text = some module) :
    ∀ span members values, module.Holds (.object span members) →
      mappingOf source members = .ok values →
      List.Forall₂ (KeepsTemplate source) members values := by
  intro objectSpan members values holds mapped
  obtain ⟨gives, -⟩ := mappingOf_eq_ok_iff.mp mapped
  have each : List.Forall₂ (fun member entry => member ∈ members ∧ Gives source member entry)
      members values := (List.forall₂_and_left _ _).mpr ⟨fun _ among => among, gives⟩
  refine each.imp fun member entry given => ?_
  rintro fieldSpan key computed e span parts rfl parenthesized
  obtain ⟨among, _, _, _, _, same, -, valued⟩ := given
  cases same
  have held : module.Holds (.template span parts) :=
    holds_of_member holds among (within_of_parenthesized parenthesized)
  obtain ⟨inner, text⟩ := exists_inner read held
  rw [valueOf_template parenthesized, text, withoutBackquotes_quoted] at valued
  refine ⟨inner, text, _, (Except.ok.inj valued).symm, rfl, ?_⟩
  rw [text]
  exact print_templateString_iff

/-- An object literal with one template, which has code but no back quote inside. -/
def plainTemplate : Source := .ofString "a.tsx" "(\x7b a: `x $\x7by\x7d` \x7d)"

/-- The span of the template that is the only value of the only object literal of a module. -/
def soleTemplate? : Module → Option Span
  | ⟨[.expression _ (.group _ (.object _ [.field _ (.name _ "a") false (.template span _)]))]⟩ =>
    some span
  | _ => none

theorem mappingOf_template_plain :
    ∃ module span members values, Module.read? plainTemplate.text = some module ∧
      module.Holds (.object span members) ∧ mappingOf plainTemplate members = .ok values ∧
      List.Forall₂ (KeepsTemplate plainTemplate) members values ∧
      values = [("a", .literal (.snippet ⟨.templateString, "x $\x7by\x7d"⟩))] := by
  have found : (Module.read? plainTemplate.text).bind soleTemplate? = some ⟨6, 14⟩ := by
    decide +kernel
  have text : withoutBackquotes (plainTemplate.textOf ⟨6, 14⟩) = "x $\x7by\x7d" := by
    decide +kernel
  obtain ⟨module, read, only⟩ := Option.bind_eq_some_iff.mp found
  unfold soleTemplate? at only
  split at only
  case h_2 => cases only
  case h_1 statement group object field key template parts =>
    cases only
    have mapped : mappingOf plainTemplate
        [.field field (.name key "a") false (.template ⟨6, 14⟩ parts)] =
          .ok [("a", .literal (.snippet ⟨.templateString, "x $\x7by\x7d"⟩))] := by
      rw [mappingOf, valuesOf_field, valueOf_template .bare, text]
      rfl
    refine ⟨_, object, _, _, read, ?holds, mapped, ?kept, rfl⟩
    case holds =>
      exact ⟨_, List.mem_singleton_self _, .single (List.mem_singleton_self _)⟩
    case kept =>
      refine mappingOf_template plainTemplate _ read object _ _ ?_ mapped
      exact ⟨_, List.mem_singleton_self _, .single (List.mem_singleton_self _)⟩

/-- Of a template in another one, and of an escaped back quote, the back quotes are lost. -/
theorem mappingOf_template_nested :
    (readHelper "inline.tsx" (enumText "`a $\x7b`b`\x7d`")).toOption.map Helper.print =
        some (enumText "`a $\x7bb\x7d`") ∧
      (readHelper "inline.tsx" (enumText "`a\\`b`")).toOption.map Helper.print =
        some (enumText "`a\\b`") := by
  constructor <;> decide +kernel

end Declaration

end DesignLink
