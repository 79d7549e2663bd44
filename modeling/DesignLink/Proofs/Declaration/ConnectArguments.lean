import DesignLink.Declaration.Connections
import DesignLink.Proofs.Declaration.Arguments

/-!
The arguments of `figma.connect` calls. An object literal is taken as the config wherever it stands,
and the last one counts; without their object literals the arguments are accepted exactly if they
are a component, if there is one, and the node. So where no object literal stands in front of
another argument, the documented form is accepted and nothing else. Main statement:
`connectionOf_arguments`.
-/

namespace DesignLink

open Script

def Script.Item.members? : Item → Option (List Member)
  | .value (.object _ members) => some members
  | _ => none

namespace Declaration

/-- The component in front of the node, if there is one: a name or a path of members. -/
inductive ShowsComponent (source : Source) : List Item → Option String → Prop where
  | nothing : ShowsComponent source [] none
  | name (span : Span) (name : String) :
    ShowsComponent source [.value (.identifier span name)] (some (source.textOf span))
  | path (span : Span) (object : Expr) :
    ShowsComponent source [.value (.property span object)] (some (source.textOf span))

/-- The config behind the node, if there is one. -/
inductive HasConfig : List Item → List Member → Prop where
  | nothing : HasConfig [] []
  | object (span : Span) (members : List Member) :
    HasConfig [.value (.object span members)] members

/-- The documented arguments: a component if there is one, the node, a config if there is one. -/
inductive Documented (source : Source) : List Item → ConnectArguments → Prop where
  | intro {front back : List Item} {component : Option String} {config : List Member}
      (span : Span) (node : String) (shows : ShowsComponent source front component)
      (has : HasConfig back config) :
    Documented source (front ++ .value (.string span node) :: back)
      ⟨component, some node, config⟩

def lastObject (arguments : List Item) : Option Item :=
  (arguments.filter (·.members?.isSome)).getLast?

/-- The arguments with the last object literal behind them and without the others. -/
def configBehind (arguments : List Item) : List Item :=
  arguments.filter (·.members?.isNone) ++ (lastObject arguments).toList

def declaredBy (source : Source) (span : Span) (found : ConnectArguments) :
    Except Problem Connection :=
  found.config.foldlM (takeSetting source)
    ⟨found.node.getD "", found.component, source.location span.start, [], none, none, []⟩

variable {source : Source} {span : Span} {arguments : List Item} {found : ConnectArguments}

/-! Object literals among the arguments. -/

theorem takeArgument_object {item : Item} {members : List Member}
    (object : item.members? = some members) :
    takeArgument source found item = .ok { found with config := members } := by
  unfold Item.members? at object
  split at object
  case h_1 =>
    cases object
    rfl
  case h_2 => cases object

theorem takeArgument_config {item : Item} (other : item.members? = none)
    (config : List Member) :
    takeArgument source { found with config := config } item =
      (takeArgument source found item).map fun taken => { taken with config := config } := by
  cases item with
  | value e =>
    cases e with
    | object span members => cases other
    | string span text | identifier span name | property span object =>
      unfold takeArgument
      dsimp only
      split <;> rfl
    | _ => rfl
  | _ => rfl

theorem foldlM_config (config : List Member) : ∀ {others : List Item} {found : ConnectArguments},
    (∀ item ∈ others, item.members? = none) →
      others.foldlM (takeArgument source) { found with config := config } =
        (others.foldlM (takeArgument source) found).map fun taken => { taken with config := config }
  | [], _, _ => rfl
  | item :: others, found, noObjects => by
    have noObjects' : ∀ other ∈ others, other.members? = none :=
      fun other member => noObjects other (List.mem_cons_of_mem item member)
    rw [List.foldlM_cons, List.foldlM_cons,
      takeArgument_config (noObjects item List.mem_cons_self)]
    cases takeArgument source found item with
    | error problem => rfl
    | ok taken => exact foldlM_config config noObjects'

theorem foldlM_concat {others : List Item} {item : Item} {members : List Member}
    (object : item.members? = some members) :
    (others ++ [item]).foldlM (takeArgument source) found =
      (others.foldlM (takeArgument source) found).map
        fun taken => { taken with config := members } := by
  rw [List.foldlM_append]
  cases others.foldlM (takeArgument source) found with
  | error problem => rfl
  | ok taken =>
    change [item].foldlM (takeArgument source) taken = _
    rw [List.foldlM_cons, takeArgument_object object]
    rfl

/-- Of several object literals the last one is left, behind what is no object literal. -/
theorem configBehind_append {item : Item} {members : List Member}
    (object : item.members? = some members) (front back : List Item) :
    configBehind (front ++ item :: back) =
      (front ++ back).filter (·.members?.isNone) ++ [(lastObject back).getD item] := by
  simp [configBehind, lastObject, object, List.getLast?_append, List.getLast?_cons]

theorem members?_of_lastObject {last : Item} (found : lastObject arguments = some last) :
    ∃ members, last.members? = some members := by
  have member := List.mem_of_getLast? found
  exact Option.isSome_iff_exists.mp (List.mem_filter.mp member).2

theorem foldlM_configBehind : ∀ {arguments : List Item} {found : ConnectArguments},
    arguments.foldlM (takeArgument source) found =
      (configBehind arguments).foldlM (takeArgument source) found
  | [], _ => rfl
  | item :: rest, found => by
    have later (found : ConnectArguments) : rest.foldlM (takeArgument source) found =
        (configBehind rest).foldlM (takeArgument source) found := foldlM_configBehind
    rw [List.foldlM_cons]
    cases object : item.members? with
    | none =>
      have behind : configBehind (item :: rest) = item :: configBehind rest := by
        simp [configBehind, lastObject, object]
      simp only [behind, List.foldlM_cons, later]
    | some members =>
      have noObjects : ∀ other ∈ rest.filter (·.members?.isNone), other.members? = none :=
        fun other member => Option.isNone_iff_eq_none.mp (List.mem_filter.mp member).2
      have behind : configBehind (item :: rest) =
          rest.filter (·.members?.isNone) ++ [(lastObject rest).getD item] :=
        configBehind_append object [] rest
      rw [takeArgument_object object, ok_bind, later, behind, configBehind]
      cases last : lastObject rest with
      | none =>
        rw [Option.toList_none, List.append_nil, Option.getD_none, foldlM_concat object,
          foldlM_config members noObjects]
      | some last' =>
        obtain ⟨members', object'⟩ := members?_of_lastObject last
        rw [Option.toList_some, Option.getD_some, foldlM_concat object', foldlM_concat object',
          foldlM_config members noObjects]
        cases (rest.filter (·.members?.isNone)).foldlM (takeArgument source) found <;> rfl

/-! Arguments with at most one object literal, behind all others. -/

theorem foldlM_of_documented (documented : Documented source arguments found) :
    arguments.foldlM (takeArgument source) ⟨none, none, []⟩ = .ok found := by
  cases documented with
  | intro span node shows has => cases shows <;> cases has <;> rfl

theorem refused_argument {place : Span} :
    Refused (source.complain .connectArgument place : Except Problem ConnectArguments) :=
  refused_complain rfl

theorem refused_of_node {component : Option String} {node : String} {config : List Member}
    {item : Item} {rest : List Item} (other : item.members? = none) :
    Refused ((item :: rest).foldlM (takeArgument source) ⟨component, some node, config⟩) := by
  rw [List.foldlM_cons]
  refine Refused.bind ?_ _
  cases item with
  | value e =>
    cases e with
    | object span members => cases other
    | identifier span name | property span object =>
      have late : ¬ (component.isNone = true ∧ (some node).isNone = true) := fun both => by
        cases both.2
      unfold takeArgument
      dsimp only
      rw [if_neg late]
      exact refused_argument
    | _ => exact refused_argument
  | _ => exact refused_argument

theorem refused_of_component {component : String} {config : List Member} {item : Item}
    {rest : List Item} (other : item.members? = none)
    (noNode : ∀ span node, item ≠ .value (.string span node)) :
    Refused ((item :: rest).foldlM (takeArgument source) ⟨some component, none, config⟩) := by
  rw [List.foldlM_cons]
  refine Refused.bind ?_ _
  cases item with
  | value e =>
    cases e with
    | object span members => cases other
    | string span node => exact absurd rfl (noNode span node)
    | _ => exact refused_argument
  | _ => exact refused_argument

def EndsRefused (result : Except Problem ConnectArguments) : Prop :=
  Refused result ∨ ∃ found, result = .ok found ∧ found.node = none

/-- Without object literals in front, arguments that are not in the documented form are refused. -/
theorem documented_or_refused {others tail : List Item} {config : List Member}
    (noObjects : ∀ item ∈ others, item.members? = none) (has : HasConfig tail config) :
    (∃ found, Documented source (others ++ tail) found) ∨
      EndsRefused ((others ++ tail).foldlM (takeArgument source) ⟨none, none, []⟩) := by
  -- A component may be followed by the node, and the node by nothing but the config.
  have behindComponent {item : Item} {component : String} {rest : List Item}
      (shows : ShowsComponent source [item] (some component))
      (plain : ∀ item ∈ rest, item.members? = none)
      (taken : takeArgument source ⟨none, none, []⟩ item = .ok ⟨some component, none, []⟩) :
      (∃ found, Documented source (item :: rest ++ tail) found) ∨
        EndsRefused ((item :: rest ++ tail).foldlM (takeArgument source) ⟨none, none, []⟩) := by
    rw [List.cons_append, List.foldlM_cons, taken, ok_bind]
    match rest with
    | [] =>
      refine .inr (.inr ?_)
      cases has <;> exact ⟨_, rfl, rfl⟩
    | second :: rest =>
      by_cases isNode : ∃ span node, second = .value (.string span node)
      case neg =>
        refine .inr (.inl (refused_of_component (plain second List.mem_cons_self) ?_))
        exact fun span node same => isNode ⟨span, node, same⟩
      case pos =>
        obtain ⟨span, node, rfl⟩ := isNode
        match rest with
        | [] => exact .inl ⟨_, .intro span node shows has⟩
        | third :: rest =>
          have other : third.members? = none := plain third (by simp)
          exact .inr (.inl (refused_of_node other))
  match others with
  | [] =>
    refine .inr (.inr ?_)
    cases has <;> exact ⟨_, rfl, rfl⟩
  | item :: rest =>
    have plain : ∀ item ∈ rest, item.members? = none := fun other member =>
      noObjects other (List.mem_cons_of_mem item member)
    have refused (wrong : Refused (takeArgument source ⟨none, none, []⟩ item)) :
        EndsRefused ((item :: rest ++ tail).foldlM (takeArgument source) ⟨none, none, []⟩) := by
      rw [List.cons_append, List.foldlM_cons]
      exact .inl (wrong.bind _)
    cases item with
    | value e =>
      cases e with
      | object span members => cases noObjects _ List.mem_cons_self
      | identifier span name => exact behindComponent (.name span name) plain rfl
      | property span object => exact behindComponent (.path span object) plain rfl
      | string span node =>
        match rest with
        | [] => exact .inl ⟨_, .intro span node .nothing has⟩
        | second :: rest =>
          have other : second.members? = none := plain second List.mem_cons_self
          exact .inr (.inl (refused_of_node other))
      | _ => exact .inr (refused refused_argument)
    | _ => exact .inr (refused refused_argument)

/-! Calls. -/

theorem Documented.exists_node (documented : Documented source arguments found) :
    ∃ node, found.node = some node := by
  cases documented with
  | intro span node => exact ⟨node, rfl⟩

theorem connectionOf_of_documented
    (documented : Documented source (configBehind arguments) found) :
    connectionOf source span arguments = declaredBy source span found := by
  obtain ⟨node, given⟩ := documented.exists_node
  rw [connectionOf, foldlM_configBehind, foldlM_of_documented documented, ok_bind, declaredBy,
    given]
  rfl

theorem connectionOf_of_endsRefused
    (refused : EndsRefused ((configBehind arguments).foldlM (takeArgument source) ⟨none, none, []⟩)) :
    Refused (connectionOf source span arguments) := by
  rw [connectionOf, foldlM_configBehind]
  rcases refused with refused | ⟨found, taken, noNode⟩
  · exact refused.bind _
  · rw [taken, ok_bind, noNode]
    exact refused_complain rfl

theorem hasConfig_lastObject (arguments : List Item) :
    ∃ config, HasConfig (lastObject arguments).toList config := by
  cases last : lastObject arguments with
  | none => exact ⟨[], .nothing⟩
  | some item =>
    obtain ⟨members, object⟩ := members?_of_lastObject last
    unfold Item.members? at object
    split at object
    case h_1 span members' => exact ⟨members', .object span members'⟩
    case h_2 => cases object

theorem refused_of_not_documented
    (other : ∀ found, ¬ Documented source (configBehind arguments) found) :
    Refused (connectionOf source span arguments) := by
  have noObjects : ∀ item ∈ arguments.filter (·.members?.isNone), item.members? = none :=
    fun item member => Option.isNone_iff_eq_none.mp (List.mem_filter.mp member).2
  obtain ⟨config, has⟩ := hasConfig_lastObject arguments
  have either : (∃ found, Documented source (configBehind arguments) found) ∨
      EndsRefused ((configBehind arguments).foldlM (takeArgument source) ⟨none, none, []⟩) :=
    documented_or_refused noObjects has
  rcases either with ⟨found, documented⟩ | refused
  · exact absurd documented (other found)
  · exact connectionOf_of_endsRefused refused

/-- Where no object literal stands in front of another argument, the last one is behind already. -/
theorem configBehind_eq : ∀ {arguments : List Item},
    (∀ item ∈ arguments.dropLast, item.members? = none) → configBehind arguments = arguments
  | [], _ => rfl
  | [item], _ => by
    cases object : item.members? <;> simp [configBehind, lastObject, object]
  | item :: second :: rest, noObjects => by
    have other : item.members? = none := noObjects item List.mem_cons_self
    have later : configBehind (second :: rest) = second :: rest :=
      configBehind_eq fun item' member => noObjects item' (List.mem_cons_of_mem item member)
    have behind : configBehind (item :: second :: rest) = item :: configBehind (second :: rest) := by
      simp [configBehind, lastObject, other]
    rw [behind, later]

/-- Arguments are accepted exactly if they are in the documented form once the last object literal
is put behind the others and the rest of them are left out, and then declare what this form says;
any others are refused. Where no object literal stands in front of another argument the documented
form is accepted, and nothing else. -/
theorem connectionOf_arguments (source : Source) (span : Span) (arguments : List Item) :
    ((∀ found, Documented source (configBehind arguments) found →
        connectionOf source span arguments = declaredBy source span found) ∧
      ((∀ found, ¬ Documented source (configBehind arguments) found) →
        ∃ problem, connectionOf source span arguments = .error problem ∧
          problem.kind = .invalidArgument)) ∧
    ((∀ item ∈ arguments.dropLast, item.members? = none) →
      (∀ connection, connectionOf source span arguments = .ok connection →
        ∃ found, Documented source arguments found ∧
          declaredBy source span found = .ok connection) ∧
      ((∀ found, ¬ Documented source arguments found) →
        ∃ problem, connectionOf source span arguments = .error problem ∧
          problem.kind = .invalidArgument)) := by
  refine ⟨⟨fun _ => connectionOf_of_documented, refused_of_not_documented⟩, fun noObjects => ?_⟩
  have behind := configBehind_eq noObjects
  constructor
  · intro connection accepted
    refine Classical.byContradiction fun other => ?_
    have undocumented : ∀ found, ¬ Documented source (configBehind arguments) found := by
      intro found documented
      have declared : connectionOf source span arguments = declaredBy source span found :=
        connectionOf_of_documented documented
      exact other ⟨found, behind ▸ documented, declared.symm.trans accepted⟩
    have refused : Refused (connectionOf source span arguments) :=
      refused_of_not_documented undocumented
    obtain ⟨problem, refused, -⟩ := refused
    cases accepted.symm.trans refused
  · intro undocumented
    exact refused_of_not_documented (behind.symm ▸ undocumented)

def buttonCall : Source := .ofString "a.tsx" "figma.connect(Button, \"1:2\", \x7b\x7d)"

def buttonArguments : List Item :=
  [.value (.identifier ⟨14, 20⟩ "Button"), .value (.string ⟨22, 27⟩ "1:2"),
    .value (.object ⟨29, 31⟩ [])]

theorem connectionOf_arguments_button :
    (connectionOf buttonCall ⟨0, 32⟩ buttonArguments =
        .ok ⟨"1:2", some "Button", ⟨1, 1⟩, [], none, none, []⟩ ∧
      ∃ found, Documented buttonCall buttonArguments found) ∧
    ∃ problem, connectionOf buttonCall ⟨0, 32⟩ [] = .error problem ∧
      problem.kind = .invalidArgument := by
  have button : buttonCall.textOf ⟨14, 20⟩ = "Button" := by decide +kernel
  have place : buttonCall.location 0 = ⟨1, 1⟩ := by decide +kernel
  have noObjects : ∀ item ∈ buttonArguments.dropLast, item.members? = none := by
    simp [buttonArguments, Item.members?]
  have accepted : connectionOf buttonCall ⟨0, 32⟩ buttonArguments =
      .ok ⟨"1:2", some "Button", ⟨1, 1⟩, [], none, none, []⟩ := by
    rw [← button, ← place]
    rfl
  obtain ⟨found, documented, -⟩ :=
    ((connectionOf_arguments buttonCall ⟨0, 32⟩ buttonArguments).2 noObjects).1 _ accepted
  refine ⟨⟨accepted, found, documented⟩, ?_⟩
  refine ((connectionOf_arguments buttonCall ⟨0, 32⟩ []).2 (by simp)).2 fun found documented => ?_
  generalize none_ : ([] : List Item) = arguments at documented
  cases documented
  exact List.append_ne_nil_of_right_ne_nil _ (List.cons_ne_nil _ _) none_.symm

def configFirst : String := "figma.connect(\x7b\x7d, \"1:2\")"

def configTwice : String := "figma.connect(\"1:2\", \x7b example: 1 \x7d, \x7b\x7d)"

theorem Documented.noObjects (documented : Documented source arguments found) :
    ∀ item ∈ arguments.dropLast, item.members? = none := by
  cases documented with
  | intro span node shows has => cases shows <;> cases has <;> simp [Item.members?]

/-- A config in front of the node is accepted, and one behind another makes that one disappear. -/
theorem connectionOf_config_elsewhere :
    ((∀ found, ¬ Documented (.ofString "a.tsx" configFirst)
        [.value (.object ⟨14, 16⟩ []), .value (.string ⟨18, 23⟩ "1:2")] found) ∧
      connectionOf (.ofString "a.tsx" configFirst) ⟨0, 24⟩
        [.value (.object ⟨14, 16⟩ []), .value (.string ⟨18, 23⟩ "1:2")] =
          .ok ⟨"1:2", none, ⟨1, 1⟩, [], none, none, []⟩ ∧
      (readConnections "a.tsx" configFirst).toOption.map (·.map Except.isOk) = some [true]) ∧
    ((∀ span span' span'' members, ∀ found, ¬ Documented (.ofString "a.tsx" configTwice)
        [.value (.string span "1:2"), .value (.object span' members),
          .value (.object span'' [])] found) ∧
      (readConnections "a.tsx" configTwice).toOption.map
        (·.map fun read => read.toOption.map Connection.sample) = some [some none]) := by
  have place : (Source.ofString "a.tsx" configFirst).location 0 = ⟨1, 1⟩ := by decide +kernel
  refine ⟨⟨fun found documented => ?_, ?_, by decide +kernel⟩,
    fun span span' span'' members found documented => ?_, by decide +kernel⟩
  · cases documented.noObjects _ List.mem_cons_self
  · rw [← place]
    rfl
  · cases documented.noObjects _ (List.mem_cons_of_mem _ List.mem_cons_self)

end Declaration

end DesignLink
