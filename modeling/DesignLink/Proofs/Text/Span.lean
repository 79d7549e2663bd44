import DesignLink.Text.Source

/-!
Spans of a source: the text of a span that covers a known piece is that piece.
-/

namespace DesignLink

namespace Text

@[simp] theorem byteSize_nil : byteSize [] = 0 := rfl

@[simp] theorem byteSize_cons (c : Char) (rest : List Char) :
    byteSize (c :: rest) = c.utf8Size + byteSize rest := rfl

@[simp] theorem byteSize_append (front back : List Char) :
    byteSize (front ++ back) = byteSize front + byteSize back := by
  induction front with
  | nil => simp
  | cons c front ih => simp [ih, Nat.add_assoc]

/-- Behind as many bytes as a first part has, a text goes on with its second part. -/
theorem splitBytes?_append (front back : List Char) :
    splitBytes? (byteSize front) (front ++ back) = some (front, back) := by
  induction front with
  | nil => rw [byteSize_nil, List.nil_append, splitBytes?]
  | cons c front ih =>
    have positive := c.utf8Size_pos
    obtain ⟨offset, size⟩ : ∃ offset, byteSize (c :: front) = offset + 1 :=
      ⟨c.utf8Size + byteSize front - 1, by rw [byteSize_cons]; omega⟩
    have left : offset + 1 - c.utf8Size = byteSize front := by
      rw [← size, byteSize_cons]
      omega
    have fits : c.utf8Size ≤ offset + 1 := by
      rw [← size, byteSize_cons]
      omega
    rw [size, List.cons_append, splitBytes?, if_pos fits, left, ih]
    rfl

theorem utf8ByteSize_ofList : ∀ text : List Char,
    (String.ofList text).utf8ByteSize = byteSize text
  | [] => rfl
  | c :: rest => by
    have first : (String.ofList [c]).utf8ByteSize = c.utf8Size := by
      rw [← String.singleton_eq_ofList, String.utf8ByteSize_singleton]
    rw [← List.singleton_append, String.ofList_append, String.utf8ByteSize_append, first,
      utf8ByteSize_ofList rest]
    rfl

theorem byteSize_toList (text : String) : byteSize text.toList = text.utf8ByteSize := by
  rw [← utf8ByteSize_ofList, String.ofList_toList]

end Text

namespace Source

def GoesOn (source : Source) (offset : Nat) (text : List Char) : Prop :=
  ∃ before, source.text = before ++ text ∧ Text.byteSize before = offset

theorem goesOn_zero (source : Source) : source.GoesOn 0 source.text := ⟨[], rfl, rfl⟩

theorem GoesOn.behind {source : Source} {offset : Nat} {front rest : List Char}
    (goesOn : source.GoesOn offset (front ++ rest)) :
    source.GoesOn (offset + Text.byteSize front) rest := by
  obtain ⟨before, text, size⟩ := goesOn
  exact ⟨before ++ front, by rw [text, List.append_assoc],
    by rw [Text.byteSize_append, size]⟩

theorem GoesOn.behind_cons {source : Source} {offset : Nat} {c : Char} {rest : List Char}
    (goesOn : source.GoesOn offset (c :: rest)) : source.GoesOn (offset + c.utf8Size) rest :=
  GoesOn.behind (show source.GoesOn offset ([c] ++ rest) from goesOn)

theorem GoesOn.textOf {source : Source} {offset : Nat} {front rest : List Char}
    (goesOn : source.GoesOn offset (front ++ rest)) :
    source.textOf ⟨offset, offset + Text.byteSize front⟩ = String.ofList front := by
  obtain ⟨before, text, size⟩ := goesOn
  have ordered : ¬ offset + Text.byteSize front < offset := by omega
  have width : offset + Text.byteSize front - offset = Text.byteSize front := by omega
  simp only [Source.textOf, if_neg ordered, width]
  rw [text, ← size, Text.splitBytes?_append]
  simp only [Text.splitBytes?_append]

theorem GoesOn.split {source : Source} {start stop : Nat} {text rest : List Char}
    (opening : source.GoesOn start text) (closing : source.GoesOn stop rest)
    (ordered : start ≤ stop) :
    ∃ front, text = front ++ rest ∧ stop = start + Text.byteSize front := by
  obtain ⟨before, whole, size⟩ := opening
  obtain ⟨before', whole', size'⟩ := closing
  rcases List.append_eq_append_iff.mp (whole.symm.trans whole') with
    ⟨between, longer, shape⟩ | ⟨between, shorter, shape⟩
  case inl => exact ⟨between, shape, by rw [← size', longer, Text.byteSize_append, size]⟩
  case inr =>
    rw [shorter, Text.byteSize_append, size'] at size
    cases between with
    | nil => exact ⟨[], shape.symm, by rw [Text.byteSize_nil] at size ⊢; omega⟩
    | cons c between =>
      have positive := c.utf8Size_pos
      rw [Text.byteSize_cons] at size
      omega

/-- The text from one offset to another one is a first part of what goes on from there. -/
theorem GoesOn.textOf_prefix {source : Source} {start stop : Nat} {text rest : List Char}
    (opening : source.GoesOn start text) (closing : source.GoesOn stop rest) :
    (source.textOf ⟨start, stop⟩).toList <+: text := by
  by_cases ordered : start ≤ stop
  case pos =>
    obtain ⟨front, rfl, rfl⟩ := opening.split closing ordered
    rw [opening.textOf, String.toList_ofList]
    exact List.prefix_append front rest
  case neg =>
    have empty : source.textOf ⟨start, stop⟩ = "" := if_pos (Nat.lt_of_not_le ordered)
    rw [empty]
    exact List.nil_prefix

theorem GoesOn.textOf_between {source : Source} {start stop : Nat} {first last : Char}
    {rest rest' : List Char} (opening : source.GoesOn start (first :: rest))
    (closing : source.GoesOn stop (last :: rest')) (before : start < stop) :
    ∃ inner, source.textOf ⟨start, stop + last.utf8Size⟩ =
      String.ofList (first :: inner ++ [last]) := by
  obtain ⟨front, shape, rfl⟩ := opening.split closing (Nat.le_of_lt before)
  cases front with
  | nil => exact absurd before (Nat.lt_irrefl _)
  | cons c inner =>
    obtain ⟨rfl, rfl⟩ := List.cons.inj shape
    have whole : source.GoesOn start ((first :: inner ++ [last]) ++ rest') := by
      simpa using opening
    have width : start + Text.byteSize (first :: inner) + last.utf8Size =
        start + Text.byteSize (first :: inner ++ [last]) := by
      rw [Text.byteSize_append, Nat.add_assoc]
      rfl
    exact ⟨inner, width ▸ whole.textOf⟩

end Source

end DesignLink
