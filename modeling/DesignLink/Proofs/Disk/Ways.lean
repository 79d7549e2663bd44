import DesignLink.Disk.Resolve
import DesignLink.Proofs.Disk.Tree

/-!
The ways that paths take through a tree of files. A way to an entry stays one in a tree that keeps
everything; it ends at something that is there or at a free place in a directory.
-/

namespace DesignLink

namespace FileTree

section Walks

variable {old new tree : FileTree} {last : Bool} {follow follow' : Follow}

/-- What a name can do on the way to an entry, with the rest of the steps behind it. -/
inductive Passes (tree : FileTree) (last : Bool) (follow : Follow) (place : Place) (name : String) :
    List Path.Component → Place → Prop where
  | missing (absent : tree.at? (place ++ [name]) = none) :
    Passes tree last follow place name [] (place ++ [name])
  | file {content : ByteArray} (held : tree.at? (place ++ [name]) = some (.file content)) :
    Passes tree last follow place name [] (place ++ [name])
  | directory {entries : Entries} {rest : List Path.Component} {entry : Place}
    (held : tree.at? (place ++ [name]) = some (.directory entries))
    (later : tree.walk last follow (place ++ [name]) rest = .ok entry) :
    Passes tree last follow place name rest entry
  | link {target : String} (held : tree.at? (place ++ [name]) = some (.link target))
    (stays : last = false) : Passes tree last follow place name [] (place ++ [name])
  | followed {target : String} {rest : List Path.Component} {entry : Place}
    (held : tree.at? (place ++ [name]) = some (.link target))
    (goesOn : ¬(rest = [] ∧ last = false))
    (later : follow place (Path.steps target ++ rest) = .ok entry) :
    Passes tree last follow place name rest entry

theorem walk_name_iff (tree : FileTree) (last : Bool) (follow : Follow) (place : Place)
    (name : String) (rest : List Path.Component) (entry : Place) :
    tree.walk last follow place (.name name :: rest) = .ok entry ↔
      name.utf8ByteSize ≤ Path.nameLimit ∧ tree.Passes last follow place name rest entry := by
  rw [walk]
  constructor
  · intro led
    by_cases long : Path.nameLimit < name.utf8ByteSize
    · rw [if_pos long] at led
      cases led
    · rw [if_neg long] at led
      refine ⟨Nat.le_of_not_lt long, ?_⟩
      dsimp only at led
      split at led
      case h_1 absent =>
        split at led
        case isTrue same =>
          subst same
          obtain rfl := Except.ok.inj led
          exact .missing absent
        case isFalse => cases led
      case h_2 held => exact .directory held led
      case h_3 held =>
        split at led
        case isTrue same =>
          subst same
          obtain rfl := Except.ok.inj led
          exact .file held
        case isFalse => cases led
      case h_4 held =>
        split at led
        case isTrue both =>
          obtain ⟨same, stays⟩ := both
          subst same
          obtain rfl := Except.ok.inj led
          exact .link held stays
        case isFalse goesOn => exact .followed held goesOn led
  · intro both
    obtain ⟨short, passes⟩ := both
    rw [if_neg (Nat.not_lt_of_le short)]
    dsimp only
    cases passes with
    | missing absent => rw [absent]; rfl
    | file held => rw [held]; rfl
    | directory held later => rw [held]; exact later
    | link held stays => rw [held, stays]; rfl
    | followed held goesOn later =>
      rw [held]
      dsimp only
      rw [if_neg goesOn]
      exact later

theorem walk_of_keeps (keeps : old.Keeps new)
    (goesOn : ∀ place steps entry, follow place steps = .ok entry →
      follow' place steps = .ok entry) (steps : List Path.Component) :
    ∀ place entry, old.walk false follow place steps = .ok entry →
      new.walk false follow' place steps = .ok entry := by
  induction steps with
  | nil => exact fun _ _ led => led
  | cons step rest ih =>
    intro place entry led
    cases step with
    | root => exact ih [] entry led
    | here => exact ih place entry led
    | up => exact ih place.dropLast entry led
    | name text =>
      rw [walk_name_iff] at led ⊢
      obtain ⟨short, passes⟩ := led
      refine ⟨short, ?_⟩
      cases passes with
      | missing absent =>
        -- Whatever is there now, it is the last entry of the way.
        cases held : new.at? (place ++ [text]) with
        | none => exact .missing held
        | some node =>
          cases node with
          | file content => exact .file held
          | directory entries => exact .directory held rfl
          | link target => exact .link held rfl
      | file held => exact .file (keeps.file held)
      | directory held later =>
        obtain ⟨entries, held⟩ := keeps.directory held
        exact .directory held (ih _ _ later)
      | link held stays => exact .link (keeps.link held) stays
      | followed held further later => exact .followed (keeps.link held) further (goesOn _ _ _ later)

theorem walkLinks_of_keeps (keeps : old.Keeps new) (links : Nat) :
    ∀ place steps entry, old.walkLinks false links place steps = .ok entry →
      new.walkLinks false links place steps = .ok entry := by
  induction links with
  | zero =>
    intro place steps
    exact walk_of_keeps keeps (fun _ _ _ none_ => by cases none_) steps place
  | succ links ih =>
    intro place steps
    exact walk_of_keeps keeps ih steps place

def IsFree (tree : FileTree) (entry : Place) : Prop :=
  tree.at? entry = none ∧
    ∃ place name entries, entry = place ++ [name] ∧ tree.at? place = some (directory entries)

/-- What steps lead to: something that is there, or a free place. -/
def Leads (tree : FileTree) (entry : Place) : Prop :=
  (∃ node, tree.at? entry = some node) ∨ tree.IsFree entry

theorem walk_leads (top : tree.isDirectory = true)
    (leads : ∀ place steps entry, (∃ entries, tree.at? place = some (directory entries)) →
      follow place steps = .ok entry → tree.Leads entry)
    (steps : List Path.Component) :
    ∀ place entry, (∃ entries, tree.at? place = some (directory entries)) →
      tree.walk last follow place steps = .ok entry → tree.Leads entry := by
  induction steps with
  | nil =>
    intro place entry isDirectory led
    obtain ⟨entries, held⟩ := isDirectory
    obtain rfl := Except.ok.inj led
    exact .inl ⟨_, held⟩
  | cons step rest ih =>
    intro place entry isDirectory led
    cases step with
    | root =>
      apply ih [] entry _ led
      cases tree with
      | directory entries => exact ⟨entries, at?_nil _⟩
      | file content => cases top
      | link target => cases top
    | here => exact ih place entry isDirectory led
    | up =>
      apply ih place.dropLast entry _ led
      obtain ⟨entries, held⟩ := isDirectory
      by_cases empty : place = []
      · exact ⟨entries, by rw [empty] at held ⊢; exact held⟩
      · rw [← List.dropLast_concat_getLast empty] at held
        exact isDirectory_of_at?_concat held
    | name text =>
      rw [walk_name_iff] at led
      cases led.2 with
      | missing absent =>
        obtain ⟨entries, above⟩ := isDirectory
        exact .inr ⟨absent, place, text, entries, rfl, above⟩
      | file held => exact .inl ⟨_, held⟩
      | directory held later => exact ih _ _ ⟨_, held⟩ later
      | link held stays => exact .inl ⟨_, held⟩
      | followed held further later => exact leads _ _ _ isDirectory later

theorem walkLinks_leads (top : tree.isDirectory = true) (links : Nat) :
    ∀ place steps entry, (∃ entries, tree.at? place = some (directory entries)) →
      tree.walkLinks last links place steps = .ok entry → tree.Leads entry := by
  induction links with
  | zero =>
    intro place steps
    exact walk_leads top (fun _ _ _ _ none_ => by cases none_) steps place
  | succ links ih =>
    intro place steps
    exact walk_leads top ih steps place

/-- A way to an entry that is no link is one whether or not a link at its end is followed. -/
theorem walk_to_entry
    (goesOn : ∀ place steps entry, follow place steps = .ok entry →
      (∀ target, tree.at? entry ≠ some (.link target)) → follow' place steps = .ok entry)
    (steps : List Path.Component) :
    ∀ place entry, tree.walk false follow place steps = .ok entry →
      (∀ target, tree.at? entry ≠ some (.link target)) →
        tree.walk true follow' place steps = .ok entry := by
  induction steps with
  | nil => exact fun _ _ led _ => led
  | cons step rest ih =>
    intro place entry led noLink
    cases step with
    | root => exact ih [] entry led noLink
    | here => exact ih place entry led noLink
    | up => exact ih place.dropLast entry led noLink
    | name text =>
      rw [walk_name_iff] at led ⊢
      refine ⟨led.1, ?_⟩
      cases led.2 with
      | missing absent => exact .missing absent
      | file held => exact .file held
      | directory held later => exact .directory held (ih _ _ later noLink)
      | link held stays => exact absurd held (noLink _)
      | followed held further later =>
        exact .followed held (fun both => by cases both.2) (goesOn _ _ _ later noLink)

theorem walkLinks_to_entry (links : Nat) :
    ∀ place steps entry, tree.walkLinks false links place steps = .ok entry →
      (∀ target, tree.at? entry ≠ some (.link target)) →
        tree.walkLinks true links place steps = .ok entry := by
  induction links with
  | zero =>
    intro place steps
    exact walk_to_entry (fun _ _ _ none_ _ => by cases none_) steps place
  | succ links ih =>
    intro place steps
    exact walk_to_entry ih steps place

theorem resolve_eq_ok {start entry : Place} {path : String}
    (led : tree.resolve last start path = .ok entry) :
    tree.walkLinks last Path.linkLimit start (Path.steps path) = .ok entry ∧
      ∀ (tree' : FileTree) (last' : Bool), tree'.resolve last' start path =
        tree'.walkLinks last' Path.linkLimit start (Path.steps path) := by
  unfold resolve at led ⊢
  split at led
  · cases led
  split at led
  · cases led
  split at led
  · cases led
  case isFalse noNul nonempty short =>
    refine ⟨led, fun tree' last' => ?_⟩
    rw [if_neg noNul, if_neg nonempty, if_neg short]

theorem resolve_of_keeps (keeps : old.Keeps new) {start entry : Place} {path : String}
    (led : old.resolve false start path = .ok entry) :
    new.resolve false start path = .ok entry := by
  obtain ⟨walked, same⟩ := resolve_eq_ok led
  rw [same]
  exact walkLinks_of_keeps keeps _ _ _ _ walked

theorem resolve_leads (top : tree.isDirectory = true) {start entry : Place} {path : String}
    (isDirectory : ∃ entries, tree.at? start = some (directory entries))
    (led : tree.resolve last start path = .ok entry) : tree.Leads entry :=
  walkLinks_leads top _ _ _ _ isDirectory (resolve_eq_ok led).1

theorem resolve_to_file {start entry : Place} {path : String} {content : ByteArray}
    (led : tree.resolve false start path = .ok entry)
    (isFile : tree.at? entry = some (.file content)) :
    tree.resolve true start path = .ok entry := by
  obtain ⟨walked, same⟩ := resolve_eq_ok led
  rw [same]
  refine walkLinks_to_entry _ _ _ _ walked fun target isLink => ?_
  rw [isLink] at isFile
  cases isFile

end Walks

end FileTree

end DesignLink
