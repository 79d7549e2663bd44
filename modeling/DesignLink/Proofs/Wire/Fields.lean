import DesignLink.Proofs.Wire.Reading
import DesignLink.Wire.Record
import Mathlib.Data.List.Forall2

/-!
Records field by field. What a record is read as is put together from what each of its fields finds:
in an object the only part under one of its names, in a list the part in its place.
-/

namespace DesignLink.Wire

def keyed (members : List (String × Doc)) : List (Except Fault String × Doc) :=
  members.map fun member => (.ok member.1, member.2)

theorem keyed_injective : Function.Injective keyed := by
  refine List.map_injective_iff.mpr ?_
  rintro ⟨key, doc⟩ ⟨key', doc'⟩ same
  cases same
  rfl

def partsUnder (names : List String) (members : List (String × Doc)) : List Doc :=
  (members.filter fun member => member.1 ∈ names).map (·.2)

section Parts

variable {names : List String} {key : String}

theorem partsUnder_cons_of_mem (known : key ∈ names) (doc : Doc) (members : List (String × Doc)) :
    partsUnder names ((key, doc) :: members) = doc :: partsUnder names members := by
  simp [partsUnder, known]

theorem partsUnder_cons_of_not_mem (unknown : key ∉ names) (doc : Doc)
    (members : List (String × Doc)) :
    partsUnder names ((key, doc) :: members) = partsUnder names members := by
  simp [partsUnder, unknown]

end Parts

theorem mismatch_ne_ok {α : Type} (expected : String) (doc : Doc) (a : α) :
    Reader.mismatch expected doc ≠ .ok a := by
  unfold Reader.mismatch
  split <;> exact nofun

theorem toOption_mapError {ε ε' α : Type} (x : Except ε α) (f : ε → ε') :
    (x.mapError f).toOption = x.toOption := by
  cases x <;> rfl

namespace Field

variable {σ : Type}

def names (f : Field σ) : List String := f.name :: f.aliases

theorem answersTo_iff (f : Field σ) (key : String) : f.answersTo key = true ↔ key ∈ f.names := by
  rw [answersTo, Bool.or_eq_true, beq_iff_eq, List.contains_iff_mem, names, List.mem_cons,
    eq_comm]

end Field

namespace Record

variable {α β γ σ τ : Type} {mode : Mode}

def allNames (fields : List (Field σ)) : List String := fields.flatMap Field.names

theorem find?_eq_none_iff (fields : List (Field σ)) (key : String) :
    fields.find? (·.answersTo key) = none ↔ key ∉ allNames fields := by
  simp only [List.find?_eq_none, allNames, List.mem_flatMap, not_exists, not_and,
    Field.answersTo_iff]

theorem find?_both (fields : List (Field σ)) (others : List (Field τ)) (key : String) :
    (fields.map (Field.onFirst (τ := τ)) ++ others.map Field.onSecond).find? (·.answersTo key) =
      ((fields.find? (·.answersTo key)).map Field.onFirst).or
        ((others.find? (·.answersTo key)).map Field.onSecond) := by
  rw [List.find?_append, List.find?_map, List.find?_map]
  rfl

/-! Objects. -/

/-- The draft that the members of an object are collected in, without the reasons of refusals. -/
def collects (fields : List (Field σ)) (mode : Mode) (draft : σ) (members : List (String × Doc)) :
    Option σ :=
  (fromMembers fields mode none draft (keyed members)).toOption

theorem collects_cons (fields : List (Field σ)) (draft : σ) (key : String) (doc : Doc)
    (members : List (String × Doc)) :
    collects fields mode draft ((key, doc) :: members) =
      match fields.find? (·.answersTo key) with
      | none => collects fields mode draft members
      | some f =>
        if f.isSet draft then none
        else (f.set mode doc draft).toOption.bind fun draft =>
          collects fields mode draft members := by
  have skipped : skip key none doc (keyed members) = .ok () := by
    cases members <;> rfl
  have shape : keyed ((key, doc) :: members) = (.ok key, doc) :: keyed members := rfl
  rw [collects, shape, fromMembers]
  cases fields.find? (·.answersTo key) with
  | none =>
    dsimp only
    rw [skipped, ok_bind, collects]
  | some f =>
    dsimp only
    by_cases isSet : f.isSet draft = true
    · rw [if_pos isSet, if_pos isSet]
      rfl
    · rw [if_neg isSet, if_neg isSet, toOption_bind, toOption_under]
      rfl

theorem collects_both {fields : List (Field σ)} {others : List (Field τ)}
    (disjoint : ∀ key ∈ allNames fields, key ∉ allNames others) :
    ∀ (members : List (String × Doc)) (draft : σ) (draft' : τ),
      collects (fields.map Field.onFirst ++ others.map Field.onSecond) mode (draft, draft')
          members =
        (collects fields mode draft members).bind fun first =>
          (collects others mode draft' members).map (Prod.mk first)
  | [], _, _ => rfl
  | (key, doc) :: members, draft, draft' => by
    have ih := collects_both disjoint members
    rw [collects_cons, find?_both, collects_cons, collects_cons]
    cases found : fields.find? (·.answersTo key) with
    | some f =>
      have known : key ∈ allNames fields := Decidable.of_not_not fun unknown => by
        rw [(find?_eq_none_iff fields key).mpr unknown] at found
        cases found
      have foreign := (find?_eq_none_iff others key).mpr (disjoint key known)
      rw [foreign, Option.map_some, Option.some_or]
      dsimp only
      by_cases isSet : f.isSet draft = true
      · rw [if_pos (show f.onFirst.isSet (draft, draft') = true from isSet), if_pos isSet]
        rfl
      · rw [if_neg (show ¬f.onFirst.isSet (draft, draft') = true from isSet), if_neg isSet]
        dsimp only [Field.onFirst]
        rw [toOption_map]
        cases (f.set mode doc draft).toOption with
        | none => rfl
        | some next => exact ih next draft'
    | none =>
      rw [Option.map_none, Option.none_or]
      dsimp only
      cases others.find? (·.answersTo key) with
      | none => exact ih draft draft'
      | some f =>
        rw [Option.map_some]
        dsimp only
        by_cases isSet : f.isSet draft' = true
        · rw [if_pos (show f.onSecond.isSet (draft, draft') = true from isSet), if_pos isSet]
          cases collects fields mode draft members <;> rfl
        · rw [if_neg (show ¬f.onSecond.isSet (draft, draft') = true from isSet), if_neg isSet]
          dsimp only [Field.onSecond]
          rw [toOption_map]
          cases (f.set mode doc draft').toOption with
          | none => cases collects fields mode draft members <;> rfl
          | some next => exact ih draft next

def ofMembers (r : Record α) (mode : Mode) (members : List (String × Doc)) : Option α :=
  (collects r.fields mode r.empty members).bind fun draft => (r.finish draft).toOption

theorem ofMembers_map (r : Record α) (f : α → β) (members : List (String × Doc)) :
    (r.map f).ofMembers mode members = (r.ofMembers mode members).map f := by
  rw [ofMembers, ofMembers, Option.map_bind]
  congr 1
  funext draft
  exact toOption_map _ _

theorem finish_both (a : Record α) (b : Record β) (draft : a.Draft) (draft' : b.Draft) :
    ((a.both b).finish (draft, draft')).toOption =
      (a.finish draft).toOption.bind fun first =>
        (b.finish draft').toOption.map (Prod.mk first) := by
  have finished : (a.both b).finish (draft, draft') = (do
      let first ← a.finish draft
      let second ← b.finish draft'
      return (first, second)) := rfl
  rw [finished, toOption_bind]
  congr 1
  funext first
  cases b.finish draft' <;> rfl

theorem ofMembers_both {a : Record α} {b : Record β}
    (disjoint : ∀ key ∈ allNames a.fields, key ∉ allNames b.fields) (members : List (String × Doc)) :
    (a.both b).ofMembers mode members =
      (a.ofMembers mode members).bind fun first =>
        (b.ofMembers mode members).map (Prod.mk first) := by
  have collected := @collects_both _ _ mode _ _ disjoint members a.empty b.empty
  have read : (a.both b).ofMembers mode members =
      ((collects a.fields mode a.empty members).bind fun first =>
        (collects b.fields mode b.empty members).map (Prod.mk first)).bind fun draft =>
          ((a.both b).finish draft).toOption := by
    rw [← collected]
    rfl
  rw [read, ofMembers, ofMembers]
  cases collects a.fields mode a.empty members with
  | none => rfl
  | some draft =>
    cases collects b.fields mode b.empty members with
    | none =>
      dsimp only [Option.bind_some, Option.map_none, Option.bind_none]
      cases (a.finish draft).toOption <;> rfl
    | some draft' => exact finish_both a b draft draft'

def single (read : Doc → Option α) (absent : Option α) : List Doc → Option α
  | [] => absent
  | [doc] => read doc
  | _ :: _ :: _ => none

section Field

variable {read : Reader α} {absent : Except Cause α} {name : String} {aliases : List String}
  {isRequired : Bool}

def lone (name : String) (aliases : List String) (isRequired : Bool) (read : Reader α) :
    Field (Option α) where
  name := name
  aliases := aliases
  required := isRequired
  isSet := Option.isSome
  set mode doc _ := (read mode doc).map some

theorem find?_lone (key : String) :
    [lone name aliases isRequired read].find? (·.answersTo key) =
      if key ∈ name :: aliases then some (lone name aliases isRequired read) else none := by
  have answers : (lone name aliases isRequired read).answersTo key =
      decide (key ∈ name :: aliases) := by
    rw [Bool.eq_iff_iff, Field.answersTo_iff, decide_eq_true_eq]
    rfl
  rw [List.find?_singleton, answers]
  by_cases known : key ∈ name :: aliases
  · rw [if_pos known, decide_eq_true known, if_pos rfl]
  · rw [if_neg known, decide_eq_false known, if_neg Bool.false_ne_true]

theorem collects_found (a : α) : ∀ members : List (String × Doc),
    collects [lone name aliases isRequired read] mode (some a) members =
      if partsUnder (name :: aliases) members = [] then some (some a) else none
  | [] => rfl
  | (key, doc) :: members => by
    rw [collects_cons, find?_lone]
    by_cases known : key ∈ name :: aliases
    · rw [if_pos known, partsUnder_cons_of_mem known, if_neg (List.cons_ne_nil _ _)]
      rfl
    · rw [if_neg known, partsUnder_cons_of_not_mem known]
      exact collects_found a members

theorem collects_lone : ∀ members : List (String × Doc),
    collects [lone name aliases isRequired read] mode none members =
      single (fun doc => (read mode doc).toOption.map some) (some none)
        (partsUnder (name :: aliases) members)
  | [] => rfl
  | (key, doc) :: members => by
    rw [collects_cons, find?_lone]
    by_cases known : key ∈ name :: aliases
    · have set : ((lone name aliases isRequired read).set mode doc none).toOption =
          (read mode doc).toOption.map some := toOption_map _ _
      have unset : ¬(lone name aliases isRequired read).isSet none = true := nofun
      rw [if_pos known, partsUnder_cons_of_mem known]
      dsimp only
      rw [if_neg unset, set]
      cases found : (read mode doc).toOption with
      | none => cases partsUnder (name :: aliases) members <;> simp [single, found]
      | some a =>
        rw [Option.map_some, Option.bind_some, collects_found]
        cases partsUnder (name :: aliases) members <;> simp [single, found]
    · rw [if_neg known, partsUnder_cons_of_not_mem known]
      exact collects_lone members

theorem ofMembers_field (members : List (String × Doc)) :
    (field name aliases isRequired absent read).ofMembers mode members =
      single (fun doc => (read mode doc).toOption) absent.toOption
        (partsUnder (name :: aliases) members) := by
  have read_ : (field name aliases isRequired absent read).ofMembers mode members =
      (collects [lone name aliases isRequired read] mode none members).bind fun draft =>
        ((field name aliases isRequired absent read).finish draft).toOption := rfl
  rw [read_, collects_lone]
  match partsUnder (name :: aliases) members with
  | [] => rfl
  | [doc] =>
    rw [single, single]
    cases (read mode doc).toOption <;> rfl
  | _ :: _ :: _ => rfl

end Field

/-! Lists. -/

/-- The draft that the items of a list are collected in, and the items behind the last field. -/
def takes (fields : List (Field σ)) (mode : Mode) (draft : σ) (items : List Doc) :
    Option (σ × List Doc) :=
  (fromItems "" mode none 0 draft fields items).toOption

theorem toOption_fromItems (expected : String) : ∀ (fields : List (Field σ)) (position : Nat)
    (draft : σ) (items : List Doc),
      (fromItems expected mode none position draft fields items).toOption =
        takes fields mode draft items
  | [], _, _, _ => by
    simp only [takes, fromItems]
  | f :: fields, position, draft, [] => by
    simp only [takes, fromItems]
    split
    · rfl
    · rw [toOption_fromItems expected fields, toOption_fromItems "" fields]
  | f :: fields, position, draft, doc :: items => by
    simp only [takes, fromItems]
    rw [toOption_bind, toOption_bind, toOption_under, toOption_under]
    congr 1
    funext next
    rw [toOption_fromItems expected fields, toOption_fromItems "" fields]

theorem takes_nil (draft : σ) (items : List Doc) : takes [] mode draft items = some (draft, items) := by
  rw [takes, fromItems]
  rfl

theorem takes_cons_nil (f : Field σ) (fields : List (Field σ)) (draft : σ) :
    takes (f :: fields) mode draft [] =
      if f.required then none else takes fields mode draft [] := by
  rw [takes, fromItems]
  split
  · rfl
  · rw [toOption_fromItems]

theorem takes_cons_cons (f : Field σ) (fields : List (Field σ)) (draft : σ) (doc : Doc)
    (items : List Doc) :
    takes (f :: fields) mode draft (doc :: items) =
      (f.set mode doc draft).toOption.bind fun draft => takes fields mode draft items := by
  rw [takes, fromItems, toOption_bind, toOption_under]
  congr 1
  funext next
  rw [toOption_fromItems]

theorem takes_onSecond (draft : σ) : ∀ (others : List (Field τ)) (items : List Doc) (draft' : τ),
    takes (others.map Field.onSecond) mode (draft, draft') items =
      (takes others mode draft' items).map fun second => ((draft, second.1), second.2)
  | [], items, draft' => by
    rw [List.map_nil, takes_nil, takes_nil]
    rfl
  | f :: others, [], draft' => by
    have required : (Field.onSecond f : Field (σ × τ)).required = f.required := rfl
    rw [List.map_cons, takes_cons_nil, takes_cons_nil, required]
    split
    · rfl
    · exact takes_onSecond draft others [] draft'
  | f :: others, doc :: items, draft' => by
    have set : ((Field.onSecond f : Field (σ × τ)).set mode doc (draft, draft')).toOption =
        (f.set mode doc draft').toOption.map fun second => (draft, second) := toOption_map _ _
    rw [List.map_cons, takes_cons_cons, takes_cons_cons, set]
    cases (f.set mode doc draft').toOption with
    | none => rfl
    | some next => exact takes_onSecond draft others items next

theorem takes_both (others : List (Field τ)) (draft' : τ) : ∀ (fields : List (Field σ))
    (items : List Doc) (draft : σ),
      takes (fields.map Field.onFirst ++ others.map Field.onSecond) mode (draft, draft') items =
        (takes fields mode draft items).bind fun first =>
          (takes others mode draft' first.2).map fun second => ((first.1, second.1), second.2)
  | [], items, draft => by
    rw [takes_nil, Option.bind_some, List.map_nil, List.nil_append]
    exact takes_onSecond draft others items draft'
  | f :: fields, [], draft => by
    have required : (Field.onFirst f : Field (σ × τ)).required = f.required := rfl
    rw [List.map_cons, List.cons_append, takes_cons_nil, takes_cons_nil, required]
    split
    · rfl
    · exact takes_both others draft' fields [] draft
  | f :: fields, doc :: items, draft => by
    have set : ((Field.onFirst f : Field (σ × τ)).set mode doc (draft, draft')).toOption =
        (f.set mode doc draft).toOption.map fun first => (first, draft') := toOption_map _ _
    rw [List.map_cons, List.cons_append, takes_cons_cons, takes_cons_cons, set]
    cases (f.set mode doc draft).toOption with
    | none => rfl
    | some next => exact takes_both others draft' fields items next

/-- What a record is read as from the first items of a list, and the items behind them. -/
def ofItems (r : Record α) (mode : Mode) (items : List Doc) : Option (α × List Doc) :=
  (takes r.fields mode r.empty items).bind fun taken =>
    (r.finish taken.1).toOption.map fun a => (a, taken.2)

theorem ofItems_map (r : Record α) (f : α → β) (items : List Doc) :
    (r.map f).ofItems mode items =
      (r.ofItems mode items).map fun taken => (f taken.1, taken.2) := by
  have read : (r.map f).ofItems mode items =
      (takes r.fields mode r.empty items).bind fun taken =>
        ((r.finish taken.1).map f).toOption.map fun b => (b, taken.2) := rfl
  rw [read, ofItems, Option.map_bind]
  congr 1
  funext taken
  dsimp only [Function.comp_apply]
  rw [toOption_map, Option.map_map, Option.map_map]
  rfl

theorem ofItems_both (a : Record α) (b : Record β) (items : List Doc) :
    (a.both b).ofItems mode items =
      (a.ofItems mode items).bind fun first =>
        (b.ofItems mode first.2).map fun second => ((first.1, second.1), second.2) := by
  have read : (a.both b).ofItems mode items =
      ((takes a.fields mode a.empty items).bind fun first =>
        (takes b.fields mode b.empty first.2).map fun second =>
          ((first.1, second.1), second.2)).bind fun taken =>
            ((a.both b).finish taken.1).toOption.map fun c => (c, taken.2) := by
    rw [← takes_both]
    rfl
  rw [read, ofItems]
  cases takes a.fields mode a.empty items with
  | none => rfl
  | some taken =>
    obtain ⟨draft, rest⟩ := taken
    have second : b.ofItems mode rest = (takes b.fields mode b.empty rest).bind fun taken =>
        (b.finish taken.1).toOption.map fun second => (second, taken.2) := rfl
    dsimp only [Option.bind_some]
    cases found : takes b.fields mode b.empty rest with
    | none =>
      dsimp only [Option.map_none, Option.bind_none]
      rw [found] at second
      cases (a.finish draft).toOption with
      | none => rfl
      | some first => exact (congrArg (Option.map _) second).symm
    | some taken' =>
      obtain ⟨draft', rest'⟩ := taken'
      dsimp only [Option.map_some, Option.bind_some]
      rw [found] at second
      rw [finish_both]
      cases (a.finish draft).toOption with
      | none => rfl
      | some first =>
        dsimp only [Option.bind_some, Option.map_some]
        rw [second]
        dsimp only [Option.bind_some]
        cases (b.finish draft').toOption <;> rfl

theorem ofItems_field {read : Reader α} {absent : Except Cause α} {name : String}
    {aliases : List String} {isRequired : Bool} (items : List Doc) :
    (field name aliases isRequired absent read).ofItems mode items =
      match items with
      | [] => if isRequired then none else absent.toOption.map fun a => (a, [])
      | doc :: items => (read mode doc).toOption.map fun a => (a, items) := by
  have read_ : (field name aliases isRequired absent read).ofItems mode items =
      (takes [lone name aliases isRequired read] mode none items).bind fun taken =>
        ((field name aliases isRequired absent read).finish taken.1).toOption.map
          fun a => (a, taken.2) := rfl
  rw [read_]
  cases items with
  | nil =>
    have required : (lone name aliases isRequired read).required = isRequired := rfl
    rw [takes_cons_nil, required]
    cases isRequired <;> rfl
  | cons doc items =>
    have set : ((lone name aliases isRequired read).set mode doc none).toOption =
        (read mode doc).toOption.map some := toOption_map _ _
    rw [takes_cons_cons, set]
    dsimp only
    cases (read mode doc).toOption with
    | none => rfl
    | some a =>
      have nothing : takes ([] : List (Field (Option α))) mode (some a) items =
          some (some a, items) := takes_nil _ _
      rw [Option.map_some, Option.bind_some, nothing]
      rfl

theorem exists_keyed {fields : List (Field σ)} {ending : Option Fault} :
    ∀ {members : List (Except Fault String × Doc)} {draft collected : σ},
      fromMembers fields mode ending draft members = .ok collected →
        ending = none ∧ ∃ named, members = keyed named
  | [], _, _, ok => by
    cases ending with
    | none => exact ⟨rfl, [], rfl⟩
    | some fault => cases ok
  | (.error fault, doc) :: members, _, _, ok => nomatch ok
  | (.ok key, doc) :: members, draft, collected, ok => by
    have later : ∃ draft', fromMembers fields mode ending draft' members = .ok collected := by
      rw [fromMembers] at ok
      split at ok
      case h_1 =>
        obtain ⟨_, _, rest⟩ := exists_of_bind ok
        exact ⟨_, rest⟩
      case h_2 f _ =>
        split at ok
        case isTrue => cases ok
        case isFalse =>
          obtain ⟨_, _, rest⟩ := exists_of_bind ok
          exact ⟨_, rest⟩
    obtain ⟨draft', rest⟩ := later
    obtain ⟨noFault, named, rfl⟩ := exists_keyed rest
    exact ⟨noFault, (key, doc) :: named, rfl⟩

theorem checkEnd_eq_ok_iff (count : Nat) (ending : Option Fault) (extra : List Doc) :
    checkEnd mode count ending extra = .ok () ↔ extra = [] ∧ ending = none := by
  constructor
  · intro ok
    unfold checkEnd at ok
    split at ok
    case h_1 => exact ⟨rfl, rfl⟩
    all_goals cases ok
  · rintro ⟨rfl, rfl⟩
    cases mode <;> rfl

/-- A record is read from an object whose keys are all texts, or from a list of its fields. -/
theorem read_eq_ok_iff (name : String) (r : Record α) (mode : Mode) (doc : Doc) (a : α) :
    r.read name mode doc = .ok a ↔ ∃ inner, mode.enter = .ok inner ∧
      ((∃ members, doc = .object (keyed members) none ∧ r.ofMembers inner members = some a) ∨
        ∃ items, doc = .list items none ∧ r.ofItems inner items = some (a, [])) := by
  have finish (draft : r.Draft) : r.finishDraft draft = .ok a ↔
      (r.finish draft).toOption = some a := by
    rw [← toOption_eq_some, finishDraft, toOption_mapError]
  constructor
  · intro ok
    cases doc with
    | object members ending =>
      obtain ⟨inner, entered, found⟩ := exists_of_bind ok
      obtain ⟨draft, collected, finished⟩ := exists_of_bind found
      obtain ⟨rfl, named, rfl⟩ := exists_keyed collected
      refine ⟨inner, entered, .inl ⟨named, rfl, ?_⟩⟩
      rw [ofMembers, collects, collected]
      exact (finish draft).mp finished
    | list items ending =>
      obtain ⟨inner, entered, found⟩ := exists_of_bind ok
      obtain ⟨⟨draft, extra⟩, taken, found⟩ := exists_of_bind found
      obtain ⟨_, atEnd, finished⟩ := exists_of_bind found
      obtain ⟨rfl, rfl⟩ := (checkEnd_eq_ok_iff _ _ _).mp atEnd
      refine ⟨inner, entered, .inr ⟨items, rfl, ?_⟩⟩
      have taken_ : takes r.fields inner r.empty items = some (draft, []) := by
        rw [← toOption_fromItems, taken]
        rfl
      rw [ofItems, taken_, Option.bind_some, (finish draft).mp finished]
      rfl
    | numeral value => exact absurd ok (mismatch_ne_ok _ _ _)
    | string value => exact absurd ok (mismatch_ne_ok _ _ _)
    | null | boolean | broken => cases ok
  · rintro ⟨inner, entered, ⟨members, rfl, read⟩ | ⟨items, rfl, read⟩⟩
    · obtain ⟨draft, collected, finished⟩ := Option.bind_eq_some_iff.mp read
      rw [Record.read, entered, ok_bind, toOption_eq_some.mp collected, ok_bind]
      exact (finish draft).mpr finished
    · obtain ⟨⟨draft, extra⟩, taken, finished⟩ := Option.bind_eq_some_iff.mp read
      obtain ⟨a', finished', same⟩ := Option.map_eq_some_iff.mp finished
      obtain ⟨rfl, rfl⟩ := Prod.mk.inj same
      rw [Record.read, entered, ok_bind]
      dsimp only
      rw [toOption_eq_some.mp ((toOption_fromItems _ _ _ _ _).trans taken), ok_bind]
      dsimp only
      rw [(checkEnd_eq_ok_iff _ _ _).mpr ⟨rfl, rfl⟩, ok_bind]
      exact (finish draft).mpr finished'

theorem read_map_iff (name : String) (r : Record α) (f : α → β) (mode : Mode) (doc : Doc) (b : β) :
    (r.map f).read name mode doc = .ok b ↔ ∃ a, r.read name mode doc = .ok a ∧ f a = b := by
  simp only [read_eq_ok_iff, ofMembers_map, ofItems_map, Option.map_eq_some_iff, Prod.exists,
    Prod.mk.injEq]
  constructor
  · rintro ⟨inner, entered, ⟨members, rfl, a, read, rfl⟩ | ⟨items, rfl, a, _, read, rfl, rfl⟩⟩
    · exact ⟨a, ⟨inner, entered, .inl ⟨members, rfl, read⟩⟩, rfl⟩
    · exact ⟨a, ⟨inner, entered, .inr ⟨items, rfl, read⟩⟩, rfl⟩
  · rintro ⟨a, ⟨inner, entered, ⟨members, rfl, read⟩ | ⟨items, rfl, read⟩⟩, rfl⟩
    · exact ⟨inner, entered, .inl ⟨members, rfl, a, read, rfl⟩⟩
    · exact ⟨inner, entered, .inr ⟨items, rfl, a, [], read, rfl, rfl⟩⟩

section Required

variable {key key' : String} {aliases aliases' : List String} {read : Reader α} {read' : Reader β}
  {name : String} {doc : Doc} {a : α} {b : β}

theorem ofMembers_requiredAs_iff {members : List (String × Doc)} :
    (requiredAs key aliases read).ofMembers mode members = some a ↔
      ∃ part, partsUnder (key :: aliases) members = [part] ∧ read mode part = .ok a := by
  rw [requiredAs, ofMembers_field]
  match partsUnder (key :: aliases) members with
  | [] => exact ⟨nofun, nofun⟩
  | [part] =>
    rw [single, toOption_eq_some]
    exact ⟨fun ok => ⟨part, rfl, ok⟩, fun ⟨_, same, ok⟩ => by cases same; exact ok⟩
  | _ :: _ :: _ => exact ⟨nofun, nofun⟩

theorem ofItems_requiredAs_iff {items rest : List Doc} :
    (requiredAs key aliases read).ofItems mode items = some (a, rest) ↔
      ∃ part, items = part :: rest ∧ read mode part = .ok a := by
  rw [requiredAs, ofItems_field]
  cases items with
  | nil => exact ⟨nofun, nofun⟩
  | cons part items =>
    dsimp only
    rw [Option.map_eq_some_iff]
    constructor
    · rintro ⟨_, ok, same⟩
      cases same
      exact ⟨part, rfl, toOption_eq_some.mp ok⟩
    · rintro ⟨_, same, ok⟩
      cases same
      exact ⟨a, toOption_eq_some.mpr ok, rfl⟩

theorem read_one_iff :
    (requiredAs key aliases read).read name mode doc = .ok a ↔
      ∃ inner, mode.enter = .ok inner ∧ ∃ part, read inner part = .ok a ∧
        ((∃ members, doc = .object (keyed members) none ∧
          partsUnder (key :: aliases) members = [part]) ∨ doc = .list [part] none) := by
  simp only [read_eq_ok_iff, ofMembers_requiredAs_iff, ofItems_requiredAs_iff]
  constructor
  · rintro ⟨inner, entered, ⟨members, rfl, part, found, ok⟩ | ⟨items, rfl, part, rfl, ok⟩⟩
    · exact ⟨inner, entered, part, ok, .inl ⟨members, rfl, found⟩⟩
    · exact ⟨inner, entered, part, ok, .inr rfl⟩
  · rintro ⟨inner, entered, part, ok, ⟨members, rfl, found⟩ | rfl⟩
    · exact ⟨inner, entered, .inl ⟨members, rfl, part, found, ok⟩⟩
    · exact ⟨inner, entered, .inr ⟨_, rfl, part, rfl, ok⟩⟩

theorem read_two_iff (disjoint : ∀ known ∈ key :: aliases, known ∉ key' :: aliases') :
    ((requiredAs key aliases read).both (requiredAs key' aliases' read')).read name mode doc =
        .ok (a, b) ↔
      ∃ inner, mode.enter = .ok inner ∧ ∃ part part',
        read inner part = .ok a ∧ read' inner part' = .ok b ∧
          ((∃ members, doc = .object (keyed members) none ∧
            partsUnder (key :: aliases) members = [part] ∧
            partsUnder (key' :: aliases') members = [part']) ∨
              doc = .list [part, part'] none) := by
  have apart : ∀ known ∈ allNames (requiredAs key aliases read).fields,
      known ∉ allNames (requiredAs key' aliases' read').fields := by
    simpa [allNames, requiredAs, field, Field.names] using disjoint
  simp only [read_eq_ok_iff, ofMembers_both apart, ofItems_both, Option.map_eq_some_iff,
    Option.bind_eq_some_iff, ofMembers_requiredAs_iff, ofItems_requiredAs_iff, Prod.exists,
    Prod.mk.injEq]
  constructor
  · rintro ⟨inner, entered, ⟨members, rfl, _, ⟨part, found, ok⟩, _, ⟨part', found', ok'⟩, rfl, rfl⟩ |
      ⟨items, rfl, _, _, ⟨part, rfl, ok⟩, _, _, ⟨part', rfl, ok'⟩, ⟨rfl, rfl⟩, rfl⟩⟩
    · exact ⟨inner, entered, part, part', ok, ok', .inl ⟨members, rfl, found, found'⟩⟩
    · exact ⟨inner, entered, part, part', ok, ok', .inr rfl⟩
  · rintro ⟨inner, entered, part, part', ok, ok', ⟨members, rfl, found, found'⟩ | rfl⟩
    · exact ⟨inner, entered,
        .inl ⟨members, rfl, a, ⟨part, found, ok⟩, b, ⟨part', found', ok'⟩, rfl, rfl⟩⟩
    · exact ⟨inner, entered, .inr ⟨_, rfl, a, [part'], ⟨part, rfl, ok⟩, b, [], ⟨part', rfl, ok'⟩,
        ⟨rfl, rfl⟩, rfl⟩⟩

end Required

end Record

/-! Lists. -/

section Items

variable {α : Type} {read : Reader α} {mode : Mode}

theorem listFrom_eq_ok_iff {ending : Option Fault} : ∀ {items : List Doc} {position : Nat}
    {values : List α}, Reader.listFrom read mode ending position items = .ok values ↔
      ending = none ∧ List.Forall₂ (fun item a => read mode item = .ok a) items values
  | [], position, values => by
    cases ending with
    | none =>
      rw [List.forall₂_nil_left_iff]
      exact ⟨fun ok => ⟨rfl, (Except.ok.inj ok).symm⟩, fun both => congrArg Except.ok both.2.symm⟩
    | some fault => exact ⟨nofun, nofun⟩
  | item :: items, position, values => by
    rw [Reader.listFrom, List.forall₂_cons_left_iff]
    constructor
    · intro ok
      obtain ⟨a, first, ok⟩ := exists_of_bind ok
      obtain ⟨others, later, ok⟩ := exists_of_bind ok
      obtain ⟨noFault, rest⟩ := listFrom_eq_ok_iff.mp later
      cases ok
      exact ⟨noFault, a, others, ok_of_mapError first, rest, rfl⟩
    · rintro ⟨noFault, a, others, first, rest, rfl⟩
      rw [first, listFrom_eq_ok_iff.mpr ⟨noFault, rest⟩]
      rfl

theorem list_eq_ok_iff {doc : Doc} {values : List α} :
    Reader.list read mode doc = .ok values ↔ ∃ inner, mode.enter = .ok inner ∧ ∃ items,
      doc = .list items none ∧ List.Forall₂ (fun item a => read inner item = .ok a) items values := by
  constructor
  · intro ok
    cases doc with
    | list items ending =>
      obtain ⟨inner, entered, ok⟩ := exists_of_bind ok
      obtain ⟨rfl, each⟩ := listFrom_eq_ok_iff.mp ok
      exact ⟨inner, entered, items, rfl, each⟩
    | numeral value => exact absurd ok (mismatch_ne_ok _ _ _)
    | string value => exact absurd ok (mismatch_ne_ok _ _ _)
    | null | boolean | object | broken => cases ok
  · rintro ⟨inner, entered, items, rfl, each⟩
    rw [Reader.list, entered, ok_bind]
    exact listFrom_eq_ok_iff.mpr ⟨rfl, each⟩

end Items

end DesignLink.Wire
