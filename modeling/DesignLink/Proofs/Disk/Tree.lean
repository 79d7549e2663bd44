import DesignLink.Disk.Basic

/-!
Trees of files: what is at a place behind a new entry. A tree keeps what was there if the new entry
is where nothing was.
-/

namespace DesignLink

namespace Entries

theorem get?_put (entries : Entries) (name other : String) (node : FileTree) :
    Entries.get? (Entries.put entries name node) other =
      if other = name then some node else Entries.get? entries other := by
  induction entries with
  | nil => simp [put, get?, eq_comm]
  | cons entry rest ih =>
    obtain ⟨first, kept⟩ := entry
    unfold put
    by_cases here : first = name
    · subst here
      by_cases asked : other = first
      · simp [get?, asked]
      · simp [get?, asked, Ne.symm asked]
    · rw [if_neg here]
      by_cases before : name < first ∧ (get? rest name).isNone
      · rw [if_pos before]
        by_cases asked : other = name
        · simp [get?, asked]
        · rw [get?, if_neg (Ne.symm asked), if_neg asked]
      · rw [if_neg before]
        by_cases asked : first = other
        · subst asked
          rw [get?, if_pos rfl, if_neg here, get?, if_pos rfl]
        · rw [get?, if_neg asked, ih, get?, if_neg asked]

end Entries

namespace FileTree

theorem at?_nil (tree : FileTree) : tree.at? [] = some tree := by unfold at?; rfl

theorem at?_cons (entries : Entries) (name : String) (rest : Place) :
    (directory entries).at? (name :: rest) =
      (Entries.get? entries name).bind fun node => node.at? rest := by
  rw [at?]
  cases Entries.get? entries name <;> rfl

theorem exists_of_at?_cons {tree node : FileTree} {name : String} {rest : Place}
    (found : tree.at? (name :: rest) = some node) :
    ∃ entries inner, tree = directory entries ∧ Entries.get? entries name = some inner ∧
      inner.at? rest = some node := by
  cases tree with
  | file content => cases found
  | link target => cases found
  | directory entries =>
    rw [at?_cons] at found
    obtain ⟨inner, here, below⟩ := Option.bind_eq_some_iff.mp found
    exact ⟨entries, inner, rfl, here, below⟩

theorem at?_append (front back : Place) (tree : FileTree) :
    tree.at? (front ++ back) = (tree.at? front).bind fun node => node.at? back := by
  induction front generalizing tree with
  | nil => rw [at?_nil]; rfl
  | cons name rest ih =>
    cases tree with
    | directory entries =>
      rw [List.cons_append, at?_cons, at?_cons]
      cases Entries.get? entries name with
      | none => rfl
      | some inner => exact ih inner
    | _ => rfl

theorem isDirectory_of_at?_concat {tree node : FileTree} {place : Place} {name : String}
    (found : tree.at? (place ++ [name]) = some node) :
    ∃ entries, tree.at? place = some (directory entries) := by
  rw [at?_append] at found
  obtain ⟨outer, here, below⟩ := Option.bind_eq_some_iff.mp found
  obtain ⟨entries, _, same, _⟩ := exists_of_at?_cons below
  exact ⟨entries, by rw [here, same]⟩

def StillThere (old new : FileTree) : Prop :=
  new = old ∨ old.isDirectory = true ∧ new.isDirectory = true

def Keeps (old new : FileTree) : Prop :=
  ∀ place node, old.at? place = some node → ∃ kept, new.at? place = some kept ∧ node.StillThere kept

theorem Keeps.refl (tree : FileTree) : tree.Keeps tree := by
  intro place node found
  exact ⟨node, found, .inl rfl⟩

theorem Keeps.trans {a b c : FileTree} (first : a.Keeps b) (second : b.Keeps c) : a.Keeps c := by
  intro place node found
  obtain ⟨kept, found, still⟩ := first place node found
  obtain ⟨kept', found', still'⟩ := second place kept found
  refine ⟨kept', found', ?_⟩
  cases still with
  | inl same => rw [← same]; exact still'
  | inr both =>
    cases still' with
    | inl same => rw [same]; exact .inr both
    | inr later => exact .inr ⟨both.1, later.2⟩

theorem Keeps.file {old new : FileTree} (keeps : old.Keeps new) {place : Place}
    {content : ByteArray} (found : old.at? place = some (.file content)) :
    new.at? place = some (.file content) := by
  obtain ⟨kept, found, still⟩ := keeps place _ found
  cases still with
  | inl same => rw [found, same]
  | inr both => cases both.1

theorem Keeps.directory {old new : FileTree} (keeps : old.Keeps new) {place : Place}
    {entries : Entries} (found : old.at? place = some (.directory entries)) :
    ∃ entries', new.at? place = some (.directory entries') := by
  obtain ⟨kept, found, still⟩ := keeps place _ found
  cases kept with
  | directory entries' => exact ⟨entries', found⟩
  | file content =>
    cases still with
    | inl same => cases same
    | inr both => cases both.2
  | link target =>
    cases still with
    | inl same => cases same
    | inr both => cases both.2

theorem Keeps.link {old new : FileTree} (keeps : old.Keeps new) {place : Place} {target : String}
    (found : old.at? place = some (.link target)) : new.at? place = some (.link target) := by
  obtain ⟨kept, found, still⟩ := keeps place _ found
  cases still with
  | inl same => rw [found, same]
  | inr both => cases both.1

/-! New entries. -/

theorem put_single (entries : Entries) (name : String) (node : FileTree) :
    (directory entries).put [name] node = directory (Entries.put entries name node) := by
  unfold put
  rfl

theorem put_inside {entries : Entries} {name : String} {inner : FileTree}
    (held : Entries.get? entries name = some inner) (next : String) (rest : Place)
    (node : FileTree) : (directory entries).put (name :: next :: rest) node =
      directory (Entries.put entries name (inner.put (next :: rest) node)) := by
  simp only [put, held]

theorem put_nowhere {entries : Entries} {name : String}
    (absent : Entries.get? entries name = none) (next : String) (rest : Place) (node : FileTree) :
    (directory entries).put (name :: next :: rest) node = directory entries := by
  simp only [put, absent]

theorem isDirectory_put (entries : Entries) (name : String) (rest : Place) (node : FileTree) :
    ((directory entries).put (name :: rest) node).isDirectory = true := by
  cases rest with
  | nil => rw [put_single]; rfl
  | cons next more =>
    cases held : Entries.get? entries name with
    | none => rw [put_nowhere held]; rfl
    | some inner => rw [put_inside held]; rfl

theorem keeps_put (place : Place) (node : FileTree) :
    ∀ tree : FileTree, tree.at? place = none → tree.Keeps (tree.put place node) := by
  induction place with
  | nil =>
    intro tree absent
    rw [at?_nil] at absent
    cases absent
  | cons name rest ih =>
    intro tree absent
    cases tree with
    | file content => exact .refl _
    | link target => exact .refl _
    | directory entries =>
      rw [at?_cons] at absent
      intro asked found held
      cases asked with
      | nil =>
        rw [at?_nil] at held
        obtain rfl := Option.some.inj held
        exact ⟨_, at?_nil _, .inr ⟨rfl, isDirectory_put entries name rest node⟩⟩
      | cons other below =>
        rw [at?_cons] at held
        obtain ⟨inner, entry, deep⟩ := Option.bind_eq_some_iff.mp held
        cases rest with
        | nil =>
          have different : other ≠ name := by
            intro same
            rw [same] at entry
            rw [entry, Option.bind_some, at?_nil] at absent
            cases absent
          refine ⟨found, ?_, .inl rfl⟩
          rw [put_single, at?_cons, Entries.get?_put, if_neg different, entry]
          exact deep
        | cons next more =>
          cases outer : Entries.get? entries name with
          | none =>
            refine ⟨found, ?_, .inl rfl⟩
            rw [put_nowhere outer, at?_cons, entry]
            exact deep
          | some outerNode =>
            rw [outer, Option.bind_some] at absent
            rw [put_inside outer, at?_cons, Entries.get?_put]
            by_cases same : other = name
            · rw [same, outer] at entry
              obtain rfl := Option.some.inj entry
              rw [if_pos same, Option.bind_some]
              exact ih outerNode absent below found deep
            · rw [if_neg same, entry]
              exact ⟨found, deep, .inl rfl⟩

theorem file_of_put {content : ByteArray} (place : Place) (node : FileTree) :
    ∀ (tree : FileTree) (asked : Place), (tree.put place node).at? asked = some (.file content) →
      tree.at? asked = some (.file content) ∨
        ∃ below, asked = place ++ below ∧ node.at? below = some (.file content) := by
  induction place with
  | nil => exact fun tree asked found => .inr ⟨asked, rfl, by rwa [put] at found⟩
  | cons name rest ih =>
    intro tree asked found
    cases tree with
    | file content => exact .inl found
    | link target => exact .inl found
    | directory entries =>
      cases asked with
      | nil =>
        have isDirectory := isDirectory_put entries name rest node
        rw [at?_nil] at found
        rw [Option.some.inj found] at isDirectory
        cases isDirectory
      | cons other below =>
        rw [at?_cons]
        cases rest with
        | nil =>
          rw [put_single, at?_cons, Entries.get?_put] at found
          by_cases same : other = name
          · rw [if_pos same, Option.bind_some] at found
            exact .inr ⟨below, by rw [same]; rfl, found⟩
          · rw [if_neg same] at found
            exact .inl found
        | cons next more =>
          cases outer : Entries.get? entries name with
          | none =>
            rw [put_nowhere outer, at?_cons] at found
            exact .inl found
          | some outerNode =>
            rw [put_inside outer, at?_cons, Entries.get?_put] at found
            by_cases same : other = name
            · rw [if_pos same, Option.bind_some] at found
              rw [same, outer, Option.bind_some]
              cases ih outerNode below found with
              | inl before => exact .inl before
              | inr inside =>
                obtain ⟨deeper, shape, held⟩ := inside
                exact .inr ⟨deeper, by rw [shape]; rfl, held⟩
            · rw [if_neg same] at found
              exact .inl found

theorem at?_put_self (node : FileTree) (name : String) (place : Place) :
    ∀ tree : FileTree, (∃ entries, tree.at? place = some (directory entries)) →
      (tree.put (place ++ [name]) node).at? (place ++ [name]) = some node := by
  induction place with
  | nil =>
    intro tree isDirectory
    obtain ⟨entries, found⟩ := isDirectory
    rw [at?_nil] at found
    obtain rfl := Option.some.inj found
    rw [List.nil_append, put_single, at?_cons, Entries.get?_put, if_pos rfl, Option.bind_some,
      at?_nil]
  | cons first rest ih =>
    intro tree isDirectory
    obtain ⟨entries, found⟩ := isDirectory
    obtain ⟨entries', inner, rfl, entry, below⟩ := exists_of_at?_cons found
    have later := ih inner ⟨entries, below⟩
    obtain ⟨next, more, shape⟩ := List.exists_cons_of_ne_nil
      (List.append_ne_nil_of_right_ne_nil rest (List.cons_ne_nil name []))
    rw [List.cons_append, shape, put_inside entry, at?_cons, Entries.get?_put, if_pos rfl,
      Option.bind_some, ← shape]
    exact later

end FileTree

end DesignLink
