import DesignLink.Proofs.Declaration.ConnectArguments

/-!
The settings of a connection in any order. A member of the config either cannot be read, or sets
nothing, or sets what belongs to its key, and that in every connection alike; so members with
different keys can change places. Main statement: `connectionOfCall_reordered`.
-/

namespace DesignLink

open Script

/-- What a member of a config sets. -/
inductive Setting where
  | props (props : PropMapping)
  | variant (values : ValueMapping)
  | sample (text : String)
  | imports (lines : List String)

namespace Setting

def key : Setting → String
  | props _ => "props"
  | variant _ => "variant"
  | sample _ => "example"
  | imports _ => "imports"

def put (connection : Connection) : Setting → Connection
  | .props mapping => { connection with props := mapping }
  | .variant values => { connection with variant := some values }
  | .sample text => { connection with sample := some text }
  | .imports lines => { connection with imports := connection.imports ++ lines }

theorem put_comm (connection : Connection) {a b : Setting} (apart : a.key ≠ b.key) :
    b.put (a.put connection) = a.put (b.put connection) := by
  cases a with
  | props mapping =>
    cases b with
    | props => exact absurd rfl apart
    | _ => rfl
  | variant values =>
    cases b with
    | variant => exact absurd rfl apart
    | _ => rfl
  | sample text =>
    cases b with
    | sample => exact absurd rfl apart
    | _ => rfl
  | imports lines =>
    cases b with
    | imports => exact absurd rfl apart
    | _ => rfl

end Setting

def Script.Member.settingKey? : Member → Option String
  | .field _ key _ _ => Declaration.settingKey? key
  | _ => none

namespace Declaration

/-- A member sets what its value is read as, under the key that belongs to it. -/
inductive Sets (source : Source) : Member → Setting → Prop where
  | props {span place : Span} {key : Key} {computed : Bool} {members : List Member}
    {mapping : PropMapping} (named : settingKey? key = some "props")
    (read : propsOf source members = .ok mapping) :
    Sets source (.field span key computed (.object place members)) (.props mapping)
  | variant {span place : Span} {key : Key} {computed : Bool} {members : List Member}
    {values : ValueMapping} (named : settingKey? key = some "variant")
    (read : mappingOf source members = .ok values) :
    Sets source (.field span key computed (.object place members)) (.variant values)
  | sample {span : Span} {key : Key} {computed : Bool} (value : Expr)
    (named : settingKey? key = some "example") :
    Sets source (.field span key computed value) (.sample (source.textOf value.span))
  | imports {span place : Span} {key : Key} {computed : Bool} {items : List Item}
    {lines : List String} (named : settingKey? key = some "imports")
    (read : importsOf source items = .ok lines) :
    Sets source (.field span key computed (.array place items)) (.imports lines)

variable {source : Source} {member other : Member}

theorem Sets.settingKey? {setting : Setting} (sets : Sets source member setting) :
    member.settingKey? = some setting.key := by
  cases sets with
  | props named | variant named | sample _ named | imports named => exact named

/-- What taking a member does, whatever the connection is: the member cannot be read, or sets
nothing, or sets one thing. -/
theorem takeSetting_cases (source : Source) (member : Member) :
    (∃ problem, ∀ connection, takeSetting source connection member = .error problem) ∨
    (∀ connection, takeSetting source connection member = .ok connection) ∨
    ∃ setting, Sets source member setting ∧
      ∀ connection, takeSetting source connection member = .ok (setting.put connection) := by
  cases member with
  | spread span value => exact .inr (.inl fun _ => rfl)
  | initialized span name value => exact .inr (.inl fun _ => rfl)
  | field span key computed value =>
    unfold takeSetting
    dsimp only
    split
    case h_1 members named =>
      cases read : propsOf source members with
      | error problem => exact .inl ⟨problem, fun _ => rfl⟩
      | ok mapping => exact .inr (.inr ⟨_, .props named read, fun _ => rfl⟩)
    case h_2 => exact .inl ⟨_, fun _ => rfl⟩
    case h_3 members named =>
      cases read : mappingOf source members with
      | error problem => exact .inl ⟨problem, fun _ => rfl⟩
      | ok values => exact .inr (.inr ⟨_, .variant named read, fun _ => rfl⟩)
    case h_4 named => exact .inr (.inr ⟨_, .sample _ named, fun _ => rfl⟩)
    case h_5 items named =>
      cases read : importsOf source items with
      | error problem => exact .inl ⟨problem, fun _ => rfl⟩
      | ok lines => exact .inr (.inr ⟨_, .imports named read, fun _ => rfl⟩)
    case h_6 => exact .inr (.inl fun _ => rfl)

/-- Members whose keys differ where both can be known. -/
def Apart (member other : Member) : Prop :=
  ∀ key, member.settingKey? = some key → other.settingKey? ≠ some key

theorem takeSetting_comm (connection : Connection) (apart : Apart member other) :
    (takeSetting source connection member >>= (takeSetting source · other)).toOption =
      (takeSetting source connection other >>= (takeSetting source · member)).toOption := by
  rw [toOption_bind, toOption_bind]
  rcases takeSetting_cases source member with ⟨problem, fails⟩ | skips | ⟨setting, sets, puts⟩
  case inl =>
    simp only [fails]
    cases (takeSetting source connection other).toOption <;> rfl
  case inr.inl =>
    simp only [skips]
    exact (Option.bind_fun_some (takeSetting source connection other).toOption).symm
  case inr.inr =>
    rcases takeSetting_cases source other with ⟨problem, fails⟩ | skips | ⟨setting', sets', puts'⟩
    case inl => simp only [fails, puts]; rfl
    case inr.inl => simp only [skips, puts]; rfl
    case inr.inr =>
      have differ : setting.key ≠ setting'.key := by
        intro same
        apply apart setting.key sets.settingKey?
        rw [same]
        exact sets'.settingKey?
      simp only [puts, puts']
      exact congrArg some (Setting.put_comm connection differ)

theorem takeSettings_reordered {members members' : List Member} (reordered : members.Perm members')
    (distinct : (members.filterMap Member.settingKey?).Nodup) (connection : Connection) :
    (members.foldlM (takeSetting source) connection).toOption =
      (members'.foldlM (takeSetting source) connection).toOption := by
  have apart : members.Pairwise Apart := by
    apply (List.pairwise_filterMap.mp distinct).imp
    intro member other differ key named named'
    exact differ key named key named' rfl
  have symm : ∀ member other : Member, Apart member other → Apart other member :=
    fun _ _ apart key named named' => apart key named' named
  apply toOption_foldlM_perm symm _ reordered apart
  intro connection member other apart
  exact takeSetting_comm connection apart

/-- The order of the settings in a config does not matter: a call whose config has pairwise different
keys, as far as they can be known, declares the same connection in each order of its members, or
none in any. -/
theorem connectionOfCall_reordered (source : Source) (span place : Span) (callee : Expr)
    (types : List Expr) (front back : List Item) {members members' : List Member}
    (reordered : members.Perm members')
    (distinct : (members.filterMap Member.settingKey?).Nodup) :
    (connectionOfCall source (.call span callee types
        (front ++ .value (.object place members) :: back))).toOption =
      (connectionOfCall source (.call span callee types
        (front ++ .value (.object place members') :: back))).toOption := by
  have behind (members : List Member) :
      (front ++ .value (.object place members) :: back).foldlM (takeArgument source)
          ⟨none, none, []⟩ =
        ((front ++ back).filter (·.members?.isNone) ++
          [(lastObject back).getD (.value (.object place members))]).foldlM
            (takeArgument source) ⟨none, none, []⟩ := by
    rw [foldlM_configBehind, configBehind_append rfl]
  change (connectionOf source span _).toOption = (connectionOf source span _).toOption
  rw [connectionOf, connectionOf, behind, behind]
  cases lastObject back with
  | some item => rfl
  | none =>
    rw [Option.getD_none, Option.getD_none, foldlM_concat rfl, foldlM_concat rfl]
    cases ((front ++ back).filter (·.members?.isNone)).foldlM (takeArgument source)
        ⟨none, none, []⟩ with
    | error problem => rfl
    | ok found =>
      obtain ⟨component, node, config⟩ := found
      cases node with
      | none => rfl
      | some node => exact takeSettings_reordered reordered distinct _

/-- A config with settings of several kinds and a member whose key is not known. -/
def settingsText : String :=
  "figma.connect(\"1:2\", \x7b imports: [\"i\"], ...x, " ++
    "\"variant\": \x7b a: true \x7d, example: y \x7d)"

def someSettings : List Member := [
  .field ⟨23, 37⟩ (.name ⟨23, 30⟩ "imports") false
    (.array ⟨32, 37⟩ [.value (.string ⟨33, 36⟩ "i")]),
  .spread ⟨39, 43⟩ (.identifier ⟨42, 43⟩ "x"),
  .field ⟨45, 67⟩ (.expression (.string ⟨45, 54⟩ "variant")) false
    (.object ⟨56, 67⟩ [.field ⟨58, 65⟩ (.name ⟨58, 59⟩ "a") false (.boolean ⟨61, 65⟩ true)]),
  .field ⟨69, 79⟩ (.name ⟨69, 76⟩ "example") false (.identifier ⟨78, 79⟩ "y")]

def settingsCall (members : List Member) : Expr :=
  .call ⟨0, 82⟩ (.property ⟨0, 13⟩ (.identifier ⟨0, 5⟩ "figma")) []
    ([.value (.string ⟨14, 19⟩ "1:2")] ++ .value (.object ⟨21, 81⟩ members) :: [])

theorem connectionOfCall_reordered_reverse :
    someSettings.Perm someSettings.reverse ∧
    (someSettings.filterMap Member.settingKey?).Nodup ∧
    ((connectionOfCall (.ofString "a.tsx" settingsText) (settingsCall someSettings)).toOption.map
      fun c => (c.node, c.sample, c.imports)) = some ("1:2", some "y", ["i"]) ∧
    (connectionOfCall (.ofString "a.tsx" settingsText) (settingsCall someSettings)).toOption =
      (connectionOfCall (.ofString "a.tsx" settingsText)
        (settingsCall someSettings.reverse)).toOption := by
  have reordered : someSettings.Perm someSettings.reverse := (List.reverse_perm someSettings).symm
  have distinct : (someSettings.filterMap Member.settingKey?).Nodup := by decide
  exact ⟨reordered, distinct, by decide +kernel,
    connectionOfCall_reordered _ _ _ _ _ _ _ reordered distinct⟩

end Declaration

end DesignLink
