import DesignLink.Declaration.Connections
import DesignLink.Proofs.Mapping.Rendered
import DesignLink.Proofs.Script.Statements

/-!
Published code is code: a rendered mapping is one object literal with its keys in their order, and
the template of a connection is a module.
-/

namespace DesignLink

open Script

/-! The default export of a template. -/

def exportedText (sample : String) : List Char :=
  ' ' :: Parser.joined [' '] [' ', '\x7d'] [("example: " ++ sample).toList, "props".toList]

theorem reads_exportedText {sample : String} (isValue : IsValue sample.toList) :
    IsValue ('\x7b' :: exportedText sample) := by
  have example_ : ("example: " ++ sample).toList = "example".toList ++ ':' :: ' ' ::
      sample.toList := by simp
  have object := reads_object (by simp [IsGap] : IsGap [' ']) listTail_spacedBrace (by decide) id
    (fun _ _ _ => True) (List.cons_ne_nil ("example: " ++ sample).toList ["props".toList]) (by
    intro text member depth enough
    rw [id_eq] at enough ⊢
    rcases List.mem_cons.mp member with rfl | later
    · rw [example_] at enough ⊢
      rw [List.length_append, List.length_cons, List.length_cons] at enough
      exact (Reads.member (readsKey_name (by decide)) isValue _ (by omega)).imp
        fun _ _ _ => trivial
    · obtain rfl := List.mem_singleton.mp later
      exact readsPart_shorthand depth)
  rw [List.map_id] at object
  exact object.isValue

/-! Templates. -/

/-- The code that a template starts from. -/
def requireText : List Char := callText "require" [] [quotedChars '\'' "figma"]

theorem isValue_requireText : IsValue requireText := by
  have call := isValue_call (by decide : IsOperandName "require") []
    [Text.quotedSingle "figma"] (by simp) (by simp) (by
    intro text member
    obtain rfl := List.mem_singleton.mp member
    rw [toList_quotedSingle]
    exact isValue_quoted (.inr rfl) "figma")
  rw [List.map_singleton, toList_quotedSingle] at call
  exact call

def templateText (props sample : String) : List Char :=
  constantText "figma" ++ (requireText ++ (['\n', '\n'] ++
    (constantText "props" ++ (props.toList ++ (['\n', '\n'] ++
      ("export default ".toList ++ ('\x7b' :: exportedText sample ++ ['\n'])))))))

theorem toList_template (props sample : String) :
    ("const figma = require('figma')\n\nconst props = " ++ props ++
      "\n\nexport default \x7b example: " ++ sample ++ ", props \x7d\n").toList =
      templateText props sample := by
  have head : "const figma = require('figma')\n\nconst props = ".toList =
      constantText "figma" ++ (requireText ++ (['\n', '\n'] ++ constantText "props")) := by decide
  have middle : "\n\nexport default \x7b example: ".toList =
      ['\n', '\n'] ++ ("export default ".toList ++ '\x7b' :: ' ' :: "example: ".toList) := by decide
  have tail : ", props \x7d\n".toList =
      ',' :: ([' '] ++ ("props".toList ++ [' ', '\x7d'])) ++ ['\n'] := by decide
  simp only [String.toList_append, head, middle, tail, templateText, exportedText, Parser.joined,
    List.append_assoc, List.cons_append]

theorem length_templateText (props sample : String) :
    (templateText props sample).length = 63 + props.toList.length +
      ('\x7b' :: exportedText sample).length + 1 := by
  have first : (constantText "figma").length = 14 := by decide
  have value : requireText.length = 16 := by decide
  have second : (constantText "props").length = 14 := by decide
  have third : "export default ".toList.length = 15 := by decide
  simp only [templateText, List.length_append, first, value, second, third, List.length_cons,
    List.length_nil]
  omega

theorem read?_templateText {props sample : String} (isProps : IsValue props.toList)
    (isSample : IsValue sample.toList) :
    ∃ module, Module.read? (templateText props sample) = some module := by
  have isExported := reads_exportedText isSample
  have length := length_templateText props sample
  obtain ⟨depth, deep⟩ : ∃ depth, 8 * (templateText props sample).length + 64 = depth + 2 :=
    ⟨_, rfl⟩
  rw [templateText] at deep length ⊢
  generalize exportedText sample = text at isExported deep length ⊢
  have value : requireText.length = 16 := by decide
  have lines (offset : Nat) {more : List Char} (starts : StartsToken more) :
      State.behind ⟨offset, ['\n', '\n'] ++ more⟩ 0 = .at true offset ⟨offset + 2, more⟩ 0 :=
    State.behind_gap (by simp [IsGap] : IsGap ['\n', '\n']) starts offset 0
  have third : EndsStatement (['\n', '\n'] ++ ("export default ".toList ++
      ('\x7b' :: text ++ ['\n']))) := endsStatement_declaration _
  have second : EndsStatement (['\n', '\n'] ++ (constantText "props" ++ (props.toList ++
      (['\n', '\n'] ++ ("export default ".toList ++ ('\x7b' :: text ++ ['\n'])))))) :=
    endsStatement_constant _
  obtain ⟨_, read₁⟩ := statement_of_constant (by decide : "figma" ∈ constantNames)
    isValue_requireText second depth (by omega) false 0 0 0
  generalize 0 + 14 + Text.byteSize requireText = offset at read₁
  obtain ⟨_, read₂⟩ := statement_of_constant (by decide : "props" ∈ constantNames)
    isProps third depth (by omega) true offset (offset + 2) 0
  generalize offset + 2 + 14 + Text.byteSize props.toList = offset' at read₂
  obtain ⟨_, read₃⟩ := statement_of_default isExported endsStatement_ending depth
    (by omega) true offset' (offset' + 2) 0
  rw [lines offset (fun _ _ => rfl)] at read₁
  rw [lines offset' (fun _ _ => rfl)] at read₂
  have isConst : Token.word "const" false ≠ .finished := by decide
  have isExport : Token.word "export" false ≠ .finished := by decide
  have run : StatementRun (Grammar.rules (depth + 2)) _ _ _ :=
    .more isConst read₁ (.more isConst read₂ (.more isExport read₃ (.done rfl)))
  rw [← deep] at run
  have start : State.at false 0 ⟨0, constantText "figma" ++ (requireText ++ (['\n', '\n'] ++
      (constantText "props" ++ (props.toList ++ (['\n', '\n'] ++ ("export default ".toList ++
        ('\x7b' :: text ++ ['\n'])))))))⟩ 0 = .facing 0 ⟨0, _⟩ 0 :=
    (State.facing_eq_at (fun _ _ => rfl) 0 0 0).symm
  rw [start] at run
  exact ⟨_, read?_of_run rfl (by rintro _ ⟨⟩) run rfl (by
    simp only [List.length_cons, List.length_nil]
    omega)⟩

theorem exists_read?_template {c : Connection} {text : String} (ok : c.template = .ok text) :
    ∃ module, Module.read? text.toList = some module := by
  obtain ⟨props, rendered, result⟩ := exists_of_bind ok
  obtain rfl := Except.ok.inj result
  have isProps : IsValue props.toList := (reads_renderProps rendered).2.isValue
  rw [toList_template]
  apply read?_templateText isProps
  cases c.sample with
  | none => exact isValue_render_literal .undefined
  | some sample => exact isValue_render_snippet ⟨.function, sample⟩

/-- A rendered mapping in parentheses is a module with one object literal, whose keys are the keys
of the mapping in their order. -/
theorem read?_renderProps {props : PropMapping} {text : String}
    (ok : props.render none = .ok text) :
    ∃ outer inner span members,
      Module.read? ('(' :: (text.toList ++ [')'])) =
        some ⟨[.expression outer (.group inner (.object span members))]⟩ ∧
      HaveKeys members (Dictionary.keys props) := by
  obtain ⟨noArrow, reads⟩ := reads_renderProps ok
  obtain ⟨outer, inner, e, read, meaning⟩ := read?_of_group reads noArrow
  obtain ⟨span, members, rfl, keys⟩ := meaning ⟨"", _, 0⟩ rfl
  exact ⟨outer, inner, span, members, read, keys⟩

/-- Whatever is rendered is code that keeps the keys, and whatever is published is a module. -/
theorem rendered_isCode :
    (∀ (props : PropMapping) (text : String), props.render none = .ok text →
      ∃ outer inner span members,
        Module.read? ('(' :: (text.toList ++ [')'])) =
          some ⟨[.expression outer (.group inner (.object span members))]⟩ ∧
        HaveKeys members (Dictionary.keys props)) ∧
    ∀ (c : Connection) (text : String), c.template = .ok text →
      ∃ module, Module.read? text.toList = some module :=
  ⟨fun _ _ ok => read?_renderProps ok, fun _ _ ok => exists_read?_template ok⟩

/-- A connection whose key and property need escapes. -/
def quotedConnection : Connection :=
  ⟨"https://figma.com/file/a", none, ⟨1, 1⟩,
    [("a\"b", .boolean "It's" (some [("true", .literal (.number (.infinite true)))])),
      ("c", .className [.literal "d", .helper (.textContent "e")])],
    some "() => <A b='c' />", none, []⟩

theorem rendered_isCode_quoted :
    (∃ text, PropMapping.render none quotedConnection.props = .ok text ∧
      ∃ outer inner span members,
        Module.read? ('(' :: (text.toList ++ [')'])) =
          some ⟨[.expression outer (.group inner (.object span members))]⟩ ∧
        HaveKeys members ["a\"b", "c"]) ∧
    ∃ text, quotedConnection.template = .ok text ∧
      ∃ module, Module.read? text.toList = some module := by
  have rendered : ∃ text, PropMapping.render none quotedConnection.props = .ok text :=
    ⟨_, rfl⟩
  obtain ⟨text, ok⟩ := rendered
  have templated : ∃ text', quotedConnection.template = .ok text' := by
    rw [Connection.template, ok]
    exact ⟨_, rfl⟩
  obtain ⟨text', ok'⟩ := templated
  exact ⟨⟨text, ok, rendered_isCode.1 quotedConnection.props text ok⟩,
    ⟨text', ok', rendered_isCode.2 quotedConnection text' ok'⟩⟩

end DesignLink
