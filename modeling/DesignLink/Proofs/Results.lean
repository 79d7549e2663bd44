/-!
Results that may fail: what a successful one was made of, and which error counts.
-/

namespace DesignLink

variable {ε α β : Type}

theorem ok_bind (a : α) (f : α → Except ε β) : (Except.ok a >>= f) = f a := rfl

theorem toOption_bind (x : Except ε α) (f : α → Except ε β) :
    (x >>= f).toOption = x.toOption.bind fun a => (f a).toOption := by
  cases x <;> rfl

theorem toOption_map (x : Except ε α) (f : α → β) :
    (x.map f).toOption = x.toOption.map f := by
  cases x <;> rfl

theorem toOption_eq_some {x : Except ε α} {a : α} : x.toOption = some a ↔ x = .ok a := by
  cases x with
  | error e => constructor <;> rintro ⟨⟩
  | ok b =>
    constructor
    · rintro ⟨⟩
      rfl
    · rintro ⟨⟩
      rfl

theorem exists_of_bind {x : Except ε α} {f : α → Except ε β} {b : β}
    (ok : x >>= f = .ok b) : ∃ a, x = .ok a ∧ f a = .ok b := by
  cases x with
  | error e => cases ok
  | ok a => exact ⟨a, rfl, ok⟩

theorem exists_of_map {x : Except ε α} {f : α → β} {b : β}
    (ok : x.map f = .ok b) : ∃ a, x = .ok a ∧ b = f a := by
  cases x with
  | error e => cases ok
  | ok a => exact ⟨a, rfl, (Except.ok.inj ok).symm⟩

theorem ok_of_mapError {ε' : Type} {x : Except ε α} {f : ε → ε'} {a : α}
    (ok : x.mapError f = .ok a) : x = .ok a := by
  cases x with
  | error e => cases ok
  | ok a' => exact congrArg _ (Except.ok.inj ok)

theorem holds_of_foldlM {γ : Type} {P : β → Prop} {f : β → γ → Except ε β} :
    ∀ {items : List γ} {b b' : β},
      (∀ c ∈ items, ∀ b b', P b → f b c = .ok b' → P b') → P b → items.foldlM f b = .ok b' → P b'
  | [], b, b', _, holds, ok => by
    cases ok
    exact holds
  | c :: items, b, b', keeps, holds, ok => by
    rw [List.foldlM_cons] at ok
    obtain ⟨middle, first, rest⟩ := exists_of_bind ok
    have later : ∀ c ∈ items, ∀ b b', P b → f b c = .ok b' → P b' :=
      fun c among => keeps c (List.mem_cons_of_mem _ among)
    exact holds_of_foldlM later (keeps c List.mem_cons_self b middle holds first) rest

/-- A fold whose steps can be exchanged succeeds in any order, with one result. The items that
are exchanged are apart from each other. -/
theorem toOption_foldlM_perm {γ : Type} {f : β → γ → Except ε β} {Apart : γ → γ → Prop}
    (symm : ∀ c c', Apart c c' → Apart c' c)
    (exchange : ∀ b c c', Apart c c' → (f b c >>= (f · c')).toOption = (f b c' >>= (f · c)).toOption)
    {items items' : List γ} (reordered : items.Perm items') (apart : items.Pairwise Apart) (b : β) :
    (items.foldlM f b).toOption = (items'.foldlM f b).toOption := by
  induction reordered generalizing b with
  | nil => rfl
  | cons c _ ih =>
    rw [List.foldlM_cons, List.foldlM_cons, toOption_bind, toOption_bind]
    congr 1
    funext b'
    exact ih (List.pairwise_cons.mp apart).2 b'
  | swap c c' rest =>
    have two : Apart c' c := (List.pairwise_cons.mp apart).1 c List.mem_cons_self
    have grouped : ∀ c c', ((c :: c' :: rest).foldlM f b).toOption =
        (f b c >>= (f · c')).toOption.bind fun b' => (rest.foldlM f b').toOption := by
      intro c c'
      rw [← toOption_bind, bind_assoc, List.foldlM_cons]
      rfl
    rw [grouped, grouped, exchange b c' c two]
  | trans earlier _ ih ih' =>
    exact (ih apart b).trans (ih' ((earlier.pairwise_iff (symm _ _)).mp apart) b)

def errorOf? : Except ε α → Option ε
  | .error e => some e
  | .ok _ => none

theorem errorOf?_map (x : Except ε α) (f : α → β) :
    errorOf? (x >>= fun a => pure (f a)) = errorOf? x := by
  cases x <;> rfl

theorem errorOf?_both {γ : Type} (x : Except ε α) (y : Except ε β) (f : α → β → γ) :
    errorOf? (x >>= fun a => y >>= fun b => pure (f a b)) = (errorOf? x).or (errorOf? y) := by
  cases x <;> cases y <;> rfl

end DesignLink
