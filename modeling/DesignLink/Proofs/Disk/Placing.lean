import DesignLink.Proofs.Disk.Tree
import Mathlib.Data.String.Basic

/-!
New entries at different places. Entries that are only put where nothing is, each into a directory
that is there, can be put in any order that leaves a directory before what it holds.
-/

namespace DesignLink

namespace Entries

section Cons

variable {name other : String} {kept node : FileTree} {rest : Entries}

theorem put_here : put ((name, kept) :: rest) name node = (name, node) :: rest := by
  rw [put, if_pos rfl]

theorem put_before (different : other ≠ name) (before : name < other ∧ (get? rest name).isNone) :
    put ((other, kept) :: rest) name node = (name, node) :: (other, kept) :: rest := by
  rw [put, if_neg different, if_pos before]

theorem put_behind (different : other ≠ name)
    (behind : ¬(name < other ∧ (get? rest name).isNone)) :
    put ((other, kept) :: rest) name node = (other, kept) :: put rest name node := by
  rw [put, if_neg different, if_neg behind]

theorem get?_behind (different : other ≠ name) :
    get? ((other, kept) :: rest) name = get? rest name := if_neg different

end Cons

theorem put_put (entries : Entries) (name : String) (first second : FileTree) :
    Entries.put (Entries.put entries name first) name second =
      Entries.put entries name second := by
  induction entries with
  | nil => simp [put]
  | cons entry rest ih =>
    obtain ⟨other, kept⟩ := entry
    by_cases here : other = name
    · rw [here, put_here, put_here, put_here]
    · by_cases before : name < other ∧ (get? rest name).isNone
      · rw [put_before here before, put_before here before, put_here]
      · have later : ¬(name < other ∧ (get? (put rest name first) name).isNone) := by
          rw [get?_put, if_pos rfl]
          exact fun free => Bool.false_ne_true free.2
        rw [put_behind here before, put_behind here before, put_behind here later, ih]

theorem put_comm_of_lt {a b : String} (less : a < b) (x y : FileTree) (entries : Entries) :
    Entries.put (Entries.put entries a x) b y = Entries.put (Entries.put entries b y) a x := by
  have other : a ≠ b := ne_of_lt less
  have aboveB (rest : Entries) : ¬(b < a ∧ (get? rest b).isNone) := fun free =>
    lt_asymm less free.1
  induction entries with
  | nil => simp [put, get?, other, Ne.symm other, less, lt_asymm less]
  | cons entry rest ih =>
    obtain ⟨name, kept⟩ := entry
    have unseenA : get? (put rest b y) a = get? rest a := by rw [get?_put, if_neg other]
    have unseenB : get? (put rest a x) b = get? rest b := by rw [get?_put, if_neg (Ne.symm other)]
    by_cases isA : name = a
    · subst isA
      rw [put_here, put_behind other (aboveB _), put_behind other (aboveB _), put_here]
    by_cases isB : name = b
    · subst isB
      by_cases free : (get? rest a).isNone
      · rw [put_here, put_before isA ⟨less, free⟩, put_before isA ⟨less, free⟩,
          put_behind other (aboveB _), put_here]
      · have taken : ¬(a < name ∧ (get? rest a).isNone) := fun all => free all.2
        rw [put_here, put_behind isA taken, put_behind isA taken, put_here]
    by_cases beforeA : a < name ∧ (get? rest a).isNone
    · rw [put_before isA beforeA, put_behind other (aboveB _)]
      by_cases beforeB : b < name ∧ (get? rest b).isNone
      · have free : (get? ((name, kept) :: rest) a).isNone := by
          rw [get?_behind isA]
          exact beforeA.2
        rw [put_before isB beforeB, put_before (Ne.symm other) ⟨less, free⟩]
      · rw [put_behind isB beforeB, put_before isA (by rwa [unseenA])]
    · rw [put_behind isA beforeA]
      by_cases beforeB : b < name ∧ (get? rest b).isNone
      · have taken : ¬(a < b ∧ (get? ((name, kept) :: rest) a).isNone) := by
          rw [get?_behind isA]
          exact fun free => beforeA ⟨less.trans beforeB.1, free.2⟩
        rw [put_before isB beforeB, put_before isB (by rwa [unseenB]),
          put_behind (Ne.symm other) taken, put_behind isA beforeA]
      · rw [put_behind isB beforeB, put_behind isB (by rwa [unseenB]),
          put_behind isA (by rwa [unseenA]), ih]

theorem put_comm {a b : String} (different : a ≠ b) (x y : FileTree) (entries : Entries) :
    Entries.put (Entries.put entries a x) b y = Entries.put (Entries.put entries b y) a x := by
  rcases lt_or_gt_of_ne different with less | greater
  · exact put_comm_of_lt less x y entries
  · exact (put_comm_of_lt greater y x entries).symm

end Entries

namespace FileTree

/-- What a name of a directory leads to once a node is put at a place below it. -/
def placed : Option FileTree → Place → FileTree → Option FileTree
  | _, [], node => some node
  | some inner, next :: rest, node => some (inner.put (next :: rest) node)
  | none, _ :: _, _ => none

def putEntry (entries : Entries) (name : String) : Option FileTree → Entries
  | some node => Entries.put entries name node
  | none => entries

theorem put_cons (entries : Entries) (name : String) (rest : Place) (node : FileTree) :
    (directory entries).put (name :: rest) node =
      directory (putEntry entries name (placed (Entries.get? entries name) rest node)) := by
  cases rest with
  | nil => rw [put_single]; rfl
  | cons next more =>
    cases held : Entries.get? entries name with
    | none => rw [put_nowhere held]; rfl
    | some inner => rw [put_inside held]; rfl

theorem get?_putEntry {name other : String} (different : other ≠ name) (entries : Entries)
    (node : Option FileTree) :
    Entries.get? (putEntry entries name node) other = Entries.get? entries other := by
  cases node with
  | none => rfl
  | some node => rw [putEntry, Entries.get?_put, if_neg different]

theorem putEntry_comm {a b : String} (different : a ≠ b) (x y : Option FileTree)
    (entries : Entries) :
    putEntry (putEntry entries a x) b y = putEntry (putEntry entries b y) a x := by
  cases x with
  | none => rfl
  | some x =>
    cases y with
    | none => rfl
    | some y => exact Entries.put_comm different x y entries

theorem put_comm (x y : FileTree) : ∀ (a b : Place) (tree : FileTree), ¬ a <+: b → ¬ b <+: a →
    (tree.put a x).put b y = (tree.put b y).put a x
  | [], b, _, notAbove, _ => absurd List.nil_prefix notAbove
  | _ :: _, [], _, _, notBelow => absurd List.nil_prefix notBelow
  | name :: rest, other :: rest', file content, _, _ => rfl
  | name :: rest, other :: rest', link target, _, _ => rfl
  | name :: rest, other :: rest', directory entries, notAbove, notBelow => by
    by_cases same : name = other
    · subst same
      have apart : ¬ rest <+: rest' := fun front =>
        notAbove (List.cons_prefix_cons.mpr ⟨rfl, front⟩)
      have apart' : ¬ rest' <+: rest := fun front =>
        notBelow (List.cons_prefix_cons.mpr ⟨rfl, front⟩)
      obtain ⟨next, more, rfl⟩ := List.exists_cons_of_ne_nil
        (fun empty => apart (empty ▸ List.nil_prefix) : rest ≠ [])
      obtain ⟨next', more', rfl⟩ := List.exists_cons_of_ne_nil
        (fun empty => apart' (empty ▸ List.nil_prefix) : rest' ≠ [])
      cases held : Entries.get? entries name with
      | none => rw [put_nowhere held, put_nowhere held, put_nowhere held]
      | some inner =>
        have heldX : Entries.get? (Entries.put entries name (inner.put (next :: more) x)) name =
            some (inner.put (next :: more) x) := by rw [Entries.get?_put, if_pos rfl]
        have heldY : Entries.get? (Entries.put entries name (inner.put (next' :: more') y)) name =
            some (inner.put (next' :: more') y) := by rw [Entries.get?_put, if_pos rfl]
        rw [put_inside held, put_inside heldX, put_inside held, put_inside heldY,
          Entries.put_put, Entries.put_put,
          put_comm x y (next :: more) (next' :: more') inner apart apart']
    · rw [put_cons, put_cons, put_cons, put_cons, get?_putEntry (Ne.symm same),
        get?_putEntry same, putEntry_comm same]

/-! Kinds of entries. -/

inductive Kind where
  | file
  | directory
  | link
  deriving DecidableEq

def kind : FileTree → Kind
  | file _ => .file
  | directory _ => .directory
  | link _ => .link

def kindAt (tree : FileTree) (place : Place) : Option Kind := (tree.at? place).map kind

theorem kindAt_eq_none {tree : FileTree} {place : Place} :
    tree.kindAt place = none ↔ tree.at? place = none := Option.map_eq_none_iff

theorem kindAt_eq_directory {tree : FileTree} {place : Place} :
    tree.kindAt place = some .directory ↔ ∃ entries, tree.at? place = some (directory entries) := by
  rw [kindAt, Option.map_eq_some_iff]
  constructor
  · intro found
    obtain ⟨node, held, isDirectory⟩ := found
    cases node with
    | directory entries => exact ⟨entries, held⟩
    | file content => cases isDirectory
    | link target => cases isDirectory
  · intro found
    obtain ⟨entries, held⟩ := found
    exact ⟨_, held, rfl⟩

theorem kindAt_cons (entries : Entries) (name : String) (rest : Place) :
    (directory entries).kindAt (name :: rest) =
      (Entries.get? entries name).bind fun inner => inner.kindAt rest := by
  rw [kindAt, at?_cons]
  cases Entries.get? entries name <;> rfl

/-- A node that holds nothing. -/
def IsLeaf (node : FileTree) : Prop := ∀ name rest, node.kindAt (name :: rest) = none

theorem isLeaf_file (content : ByteArray) : (file content).IsLeaf := fun _ _ => rfl

theorem isLeaf_empty : (directory []).IsLeaf := fun _ _ => rfl

theorem kindAt_put_single {node : FileTree} (isLeaf : node.IsLeaf) {name : String}
    {entries : Entries} (absent : (directory entries).kindAt [name] = none) (asked : Place) :
    ((directory entries).put [name] node).kindAt asked =
      if asked = [name] then some node.kind else (directory entries).kindAt asked := by
  rw [put_single]
  cases asked with
  | nil => rfl
  | cons other rest =>
    rw [kindAt_cons, Entries.get?_put, kindAt_cons]
    by_cases same : other = name
    · subst same
      rw [if_pos rfl, Option.bind_some]
      cases rest with
      | nil =>
        rw [if_pos rfl, kindAt, at?_nil]
        rfl
      | cons next more =>
        rw [kindAt_cons] at absent
        rw [if_neg (by simp), isLeaf next more]
        cases inner : Entries.get? entries other with
        | none => rfl
        | some found =>
          rw [inner, Option.bind_some, kindAt, at?_nil] at absent
          cases absent
    · rw [if_neg same, if_neg (fun equal => same (List.cons.inj equal).1)]

theorem kindAt_put {node : FileTree} (isLeaf : node.IsLeaf) (name : String) (outer : Place) :
    ∀ tree : FileTree, tree.kindAt outer = some .directory → tree.kindAt (outer ++ [name]) = none →
      ∀ asked, (tree.put (outer ++ [name]) node).kindAt asked =
        if asked = outer ++ [name] then some node.kind else tree.kindAt asked := by
  induction outer with
  | nil =>
    intro tree isDirectory absent asked
    obtain ⟨entries, held⟩ := kindAt_eq_directory.mp isDirectory
    rw [at?_nil] at held
    obtain rfl := Option.some.inj held
    exact kindAt_put_single isLeaf absent asked
  | cons first rest ih =>
    intro tree isDirectory absent asked
    obtain ⟨entries', held⟩ := kindAt_eq_directory.mp isDirectory
    obtain ⟨entries, inner, rfl, entry, below⟩ := exists_of_at?_cons held
    obtain ⟨next, more, shape⟩ := List.exists_cons_of_ne_nil
      (List.append_ne_nil_of_right_ne_nil rest (List.cons_ne_nil name []))
    rw [List.cons_append, kindAt_cons, entry, Option.bind_some] at absent
    have later := ih inner (kindAt_eq_directory.mpr ⟨entries', below⟩) absent
    rw [List.cons_append, shape, put_inside entry, ← shape]
    cases asked with
    | nil => rfl
    | cons other asked =>
      rw [kindAt_cons, Entries.get?_put, kindAt_cons]
      by_cases same : other = first
      · subst same
        rw [if_pos rfl, Option.bind_some, later, entry, Option.bind_some]
        simp only [List.cons.injEq, true_and]
      · rw [if_neg same, if_neg (fun equal => same (List.cons.inj equal).1)]

/-! Nodes that are put where nothing is. -/

/-- Puts a node at a place unless something is there. -/
def fill (tree : FileTree) (place : Place) (node : FileTree) : FileTree :=
  if tree.kindAt place = none then tree.put place node else tree

def HasRoom (tree : FileTree) (place : Place) : Prop :=
  ∃ outer name, place = outer ++ [name] ∧ tree.kindAt outer = some .directory

section Fill

variable {tree node : FileTree} {place : Place}

theorem kindAt_fill (isLeaf : node.IsLeaf) (hasRoom : tree.HasRoom place) (asked : Place) :
    (tree.fill place node).kindAt asked =
      if asked = place ∧ tree.kindAt place = none then some node.kind else tree.kindAt asked := by
  obtain ⟨outer, name, rfl, isDirectory⟩ := hasRoom
  rw [fill]
  by_cases absent : tree.kindAt (outer ++ [name]) = none
  · rw [if_pos absent, kindAt_put isLeaf name outer tree isDirectory absent]
    simp only [absent, and_true]
  · rw [if_neg absent, if_neg fun both => absent both.2]

theorem kindAt_fill_of_some (isLeaf : node.IsLeaf) (hasRoom : tree.HasRoom place) {asked : Place}
    {kind : Kind} (held : tree.kindAt asked = some kind) :
    (tree.fill place node).kindAt asked = some kind := by
  rw [kindAt_fill isLeaf hasRoom, if_neg, held]
  intro both
  rw [both.1, both.2] at held
  cases held

theorem HasRoom.fill {other : Place} (hasRoom : tree.HasRoom other) (isLeaf : node.IsLeaf)
    (room : tree.HasRoom place) : (tree.fill place node).HasRoom other := by
  obtain ⟨outer, name, shape, isDirectory⟩ := hasRoom
  exact ⟨outer, name, shape, kindAt_fill_of_some isLeaf room isDirectory⟩

theorem not_above_of_absent {a b : Place} (absent : tree.kindAt a = none) (hasRoom : tree.HasRoom b)
    (different : a ≠ b) : ¬ a <+: b := by
  intro front
  obtain ⟨outer, name, rfl, isDirectory⟩ := hasRoom
  rcases List.prefix_concat_iff.mp front with same | above
  · exact different same
  · obtain ⟨rest, rfl⟩ := above
    obtain ⟨entries, held⟩ := kindAt_eq_directory.mp isDirectory
    rw [at?_append, kindAt_eq_none.mp absent] at held
    cases held

/-- Two nodes are put where nothing is in any order, as long as they are the same if they are to
be at the same place. -/
theorem fill_comm {a b : Place} {x y : FileTree} (roomA : tree.HasRoom a) (roomB : tree.HasRoom b)
    (leafX : x.IsLeaf) (leafY : y.IsLeaf) (agree : a = b → x = y) :
    (tree.fill a x).fill b y = (tree.fill b y).fill a x := by
  by_cases same : a = b
  · rw [same, agree same]
  · by_cases absentA : tree.kindAt a = none
    · by_cases absentB : tree.kindAt b = none
      · have stillB : (tree.fill a x).kindAt b = none := by
          rw [kindAt_fill leafX roomA, if_neg fun both => same both.1.symm, absentB]
        have stillA : (tree.fill b y).kindAt a = none := by
          rw [kindAt_fill leafY roomB, if_neg fun both => same both.1, absentA]
        rw [fill, if_pos stillB, fill, if_pos absentA]
        rw [fill, if_pos stillA, fill, if_pos absentB]
        exact put_comm x y a b tree (not_above_of_absent absentA roomB same)
          (not_above_of_absent absentB roomA (Ne.symm same))
      · obtain ⟨kind, held⟩ := Option.ne_none_iff_exists'.mp absentB
        have unchanged : tree.fill b y = tree := if_neg absentB
        have still := kindAt_fill_of_some leafX roomA held
        rw [unchanged, fill, if_neg (by rw [still]; exact nofun)]
    · obtain ⟨kind, held⟩ := Option.ne_none_iff_exists'.mp absentA
      have unchanged : tree.fill a x = tree := if_neg absentA
      have still := kindAt_fill_of_some leafY roomB held
      rw [unchanged, fill.eq_1 (tree.fill b y) a x, if_neg (by rw [still]; exact nofun)]

end Fill

/-- New entries: what is to be put where. -/
abbrev Additions := List (Place × FileTree)

/-- Puts nodes where nothing is, one after the other. -/
def fillAll (tree : FileTree) (items : Additions) : FileTree :=
  items.foldl (fun tree item => tree.fill item.1 item.2) tree

/-- Each node is a leaf, and there is room for it behind the ones before. -/
def Grounded : FileTree → Additions → Prop
  | _, [] => True
  | tree, item :: rest =>
    tree.HasRoom item.1 ∧ item.2.IsLeaf ∧ Grounded (tree.fill item.1 item.2) rest

def Agree (items others : Additions) : Prop :=
  ∀ item ∈ items, ∀ other ∈ others, item.1 = other.1 → item.2 = other.2

section FillAll

variable {tree : FileTree} {items others : Additions}

theorem fillAll_append (tree : FileTree) (items others : Additions) :
    tree.fillAll (items ++ others) = (tree.fillAll items).fillAll others := List.foldl_append

theorem Agree.symm (agree : Agree items others) : Agree others items :=
  fun item member other member' same => (agree other member' item member same.symm).symm

theorem Agree.tail {item : Place × FileTree} (agree : Agree (item :: items) others) :
    Agree items others := fun item' member => agree item' (List.mem_cons_of_mem item member)

theorem kindAt_fillAll (asked : Place) : ∀ {tree : FileTree} {items : Additions},
    Grounded tree items → (tree.fillAll items).kindAt asked =
      (tree.kindAt asked).or ((items.find? fun item => item.1 = asked).map fun item => item.2.kind)
  | tree, [], _ => by
    change tree.kindAt asked = (tree.kindAt asked).or none
    rw [Option.or_none]
  | tree, item :: rest, grounded => by
    obtain ⟨hasRoom, isLeaf, later⟩ := grounded
    rw [fillAll, List.foldl_cons]
    change ((tree.fill item.1 item.2).fillAll rest).kindAt asked = _
    rw [kindAt_fillAll asked later, kindAt_fill isLeaf hasRoom]
    by_cases same : item.1 = asked
    · subst same
      cases held : tree.kindAt item.1 <;> simp
    · have other : ¬ asked = item.1 := Ne.symm same
      simp [same, other]

theorem kindAt_fillAll_of_other {asked : Place} (grounded : Grounded tree items)
    (other : ∀ item ∈ items, item.1 ≠ asked) :
    (tree.fillAll items).kindAt asked = tree.kindAt asked := by
  have nothing : items.find? (fun item => item.1 = asked) = none :=
    List.find?_eq_none.mpr fun item member => by simpa using other item member
  rw [kindAt_fillAll asked grounded, nothing, Option.map_none, Option.or_none]

theorem fillAll_fill {place : Place} {node : FileTree} (isLeaf : node.IsLeaf) :
    ∀ {tree : FileTree} {items : Additions}, tree.HasRoom place → Grounded tree items →
      Agree [(place, node)] items →
      (tree.fill place node).fillAll items = (tree.fillAll items).fill place node
  | _, [], _, _, _ => rfl
  | tree, item :: rest, hasRoom, grounded, agree => by
    obtain ⟨room, leaf, later⟩ := grounded
    have same := agree _ List.mem_cons_self item List.mem_cons_self
    have swapped := fill_comm hasRoom room isLeaf leaf same
    have behind := fillAll_fill isLeaf (hasRoom.fill leaf room) later
      fun first member other member' => agree first member other (List.mem_cons_of_mem item member')
    calc (tree.fill place node).fillAll (item :: rest)
        = ((tree.fill place node).fill item.1 item.2).fillAll rest := rfl
      _ = ((tree.fill item.1 item.2).fill place node).fillAll rest := by rw [swapped]
      _ = ((tree.fill item.1 item.2).fillAll rest).fill place node := behind

theorem Grounded.fill {place : Place} {node : FileTree} (isLeaf : node.IsLeaf) :
    ∀ {tree : FileTree} {items : Additions}, Grounded tree items → tree.HasRoom place →
      Agree [(place, node)] items → Grounded (tree.fill place node) items
  | _, [], _, _, _ => trivial
  | tree, item :: rest, grounded, hasRoom, agree => by
    obtain ⟨room, leaf, later⟩ := grounded
    have same := agree _ List.mem_cons_self item List.mem_cons_self
    have swapped := fill_comm hasRoom room isLeaf leaf same
    refine ⟨room.fill isLeaf hasRoom, leaf, ?_⟩
    rw [swapped]
    exact later.fill isLeaf (hasRoom.fill leaf room)
      fun first member other member' => agree first member other (List.mem_cons_of_mem item member')

theorem fillAll_comm : ∀ {tree : FileTree} {items others : Additions}, Grounded tree items →
    Grounded tree others → Agree items others →
    (tree.fillAll items).fillAll others = (tree.fillAll others).fillAll items
  | _, [], _, _, _, _ => rfl
  | tree, item :: rest, others, grounded, grounded', agree => by
    obtain ⟨hasRoom, isLeaf, later⟩ := grounded
    have first : Agree [item] others := fun item' member =>
      agree item' (List.mem_singleton.mp member ▸ List.mem_cons_self)
    have behind := fillAll_comm later (grounded'.fill isLeaf hasRoom first) agree.tail
    calc (tree.fillAll (item :: rest)).fillAll others
        = ((tree.fill item.1 item.2).fillAll rest).fillAll others := rfl
      _ = ((tree.fill item.1 item.2).fillAll others).fillAll rest := behind
      _ = ((tree.fillAll others).fill item.1 item.2).fillAll rest := by
        rw [fillAll_fill isLeaf hasRoom grounded' first]
      _ = (tree.fillAll others).fillAll (item :: rest) := rfl

theorem Grounded.fillAll : ∀ {tree : FileTree} {items others : Additions}, Grounded tree items →
    Grounded tree others → Agree items others → Grounded (tree.fillAll items) others
  | _, [], _, _, grounded, _ => grounded
  | tree, item :: rest, others, grounded, grounded', agree => by
    obtain ⟨hasRoom, isLeaf, later⟩ := grounded
    have first : Agree [item] others := fun item' member =>
      agree item' (List.mem_singleton.mp member ▸ List.mem_cons_self)
    exact later.fillAll (grounded'.fill isLeaf hasRoom first) agree.tail

theorem grounded_append (items others : Additions) : ∀ {tree : FileTree},
    Grounded tree (items ++ others) ↔
      Grounded tree items ∧ Grounded (tree.fillAll items) others := by
  induction items with
  | nil => simp [Grounded, FileTree.fillAll]
  | cons item rest ih =>
    intro tree
    rw [List.cons_append, Grounded, Grounded, ih, and_assoc, and_assoc]
    rfl

theorem fillAll_perm {lists others : List Additions} (perm : lists.Perm others) :
    ∀ tree : FileTree, (∀ items ∈ lists, Grounded tree items) → lists.Pairwise Agree →
      tree.fillAll lists.flatten = tree.fillAll others.flatten := by
  induction perm with
  | nil => exact fun _ _ _ => rfl
  | cons items _ ih =>
    intro tree grounded agree
    obtain ⟨first, rest⟩ := List.forall_mem_cons.mp grounded
    obtain ⟨agreeFirst, agreeRest⟩ := List.pairwise_cons.mp agree
    rw [List.flatten_cons, List.flatten_cons, fillAll_append, fillAll_append]
    exact ih _ (fun more member => first.fillAll (rest more member) (agreeFirst more member))
      agreeRest
  | swap items items' more =>
    intro tree grounded agree
    have first := grounded items' List.mem_cons_self
    have second := grounded items (List.mem_cons_of_mem items' List.mem_cons_self)
    have both := (List.pairwise_cons.mp agree).1 items List.mem_cons_self
    rw [List.flatten_cons, List.flatten_cons, List.flatten_cons, List.flatten_cons, fillAll_append,
      fillAll_append, fillAll_append, fillAll_append, fillAll_comm first second both]
  | trans front _ ih ih' =>
    intro tree grounded agree
    refine (ih tree grounded agree).trans (ih' tree ?_ ?_)
    · exact fun items member => grounded items (front.mem_iff.mpr member)
    · exact agree.perm front Agree.symm

theorem fillAll_of_present : ∀ {tree : FileTree} {items : Additions},
    (∀ item ∈ items, tree.kindAt item.1 ≠ none) → tree.fillAll items = tree
  | _, [], _ => rfl
  | tree, item :: rest, present => by
    have here : tree.fill item.1 item.2 = tree := if_neg (present item List.mem_cons_self)
    change (tree.fill item.1 item.2).fillAll rest = tree
    rw [here]
    exact fillAll_of_present fun other member => present other (List.mem_cons_of_mem item member)

end FillAll

end FileTree

end DesignLink
