import Mathlib.Data.List.Lex
import Mathlib.Data.String.Basic

/-!
Texts and their bytes: the order of texts by their characters is the order of their UTF-8 bytes.
-/

namespace DesignLink.Text

def bytes (text : String) : List UInt8 := text.toUTF8.data.toList

theorem bytes_eq (text : String) : bytes text = text.toList.flatMap String.utf8EncodeChar := by
  conv_lhs => rw [← String.ofList_toList (s := text)]
  rw [bytes, String.toUTF8_eq_toByteArray, String.toByteArray_ofList, List.utf8Encode,
    List.data_toByteArray]

theorem append_lt_append {front front' : List UInt8} (less : front < front')
    (same : front.length = front'.length) (back back' : List UInt8) :
    front ++ back < front' ++ back' := by
  induction front generalizing front' with
  | nil =>
    obtain rfl := List.length_eq_zero_iff.mp same.symm
    exact absurd less (List.not_lt_nil _)
  | cons byte rest ih =>
    cases front' with
    | nil => cases same
    | cons byte' rest' =>
      rw [List.cons_append, List.cons_append, List.cons_lt_cons_iff]
      rcases List.cons_lt_cons_iff.mp less with first | ⟨first, later⟩
      · exact .inl first
      · exact .inr ⟨first, ih later (Nat.succ.inj same)⟩

theorem toNat_lt (c : Char) : c.val.toNat < 0x110000 := by
  rcases c.valid with low | ⟨-, high⟩
  · exact lt_trans low (by decide)
  · exact high

/-- Of the digits to the base 64 of a smaller number the first one that differs is smaller. -/
theorem digits_lt {v w : Nat} (less : v < w) :
    v / 262144 < w / 262144 ∨ v / 262144 = w / 262144 ∧
      (v / 4096 % 64 < w / 4096 % 64 ∨ v / 4096 % 64 = w / 4096 % 64 ∧
        (v / 64 % 64 < w / 64 % 64 ∨ v / 64 % 64 = w / 64 % 64 ∧ v % 64 < w % 64)) := by
  have step {v w : Nat} (less : v < w) : v / 64 < w / 64 ∨ v / 64 = w / 64 ∧ v % 64 < w % 64 := by
    omega
  have thrice (v : Nat) : v / 64 / 64 = v / 4096 ∧ v / 4096 / 64 = v / 262144 :=
    ⟨Nat.div_div_eq_div_mul v 64 64, Nat.div_div_eq_div_mul v 4096 64⟩
  obtain ⟨second, third⟩ := thrice v
  obtain ⟨second', third'⟩ := thrice w
  rcases step less with first | ⟨same, first⟩
  · rcases step first with next | ⟨same, next⟩
    · rw [second, second'] at next
      rcases step next with last | ⟨same, last⟩
      · rw [third, third'] at last
        exact .inl last
      · rw [third, third'] at same
        exact .inr ⟨same, .inl last⟩
    · rw [second, second'] at same
      refine .inr ⟨by rw [← third, ← third', same], .inr ⟨by rw [same], .inl next⟩⟩
  · have outer : v / 4096 = w / 4096 := by rw [← second, ← second', same]
    exact .inr ⟨by rw [← third, ← third', outer], .inr ⟨by rw [outer], .inr ⟨by rw [same], first⟩⟩⟩

theorem four_bytes_lt {v w : Nat} (less : v < w) (valid : w < 0x110000) :
    [UInt8.ofNat (v / 262144 % 8 + 240), UInt8.ofNat (v / 4096 % 64 + 128),
      UInt8.ofNat (v / 64 % 64 + 128), UInt8.ofNat (v % 64 + 128)] <
    [UInt8.ofNat (w / 262144 % 8 + 240), UInt8.ofNat (w / 4096 % 64 + 128),
      UInt8.ofNat (w / 64 % 64 + 128), UInt8.ofNat (w % 64 + 128)] := by
  have digits := digits_lt less
  have lead {n : Nat} (small : n < 0x110000) : (n / 262144 % 8 + 240) % 2 ^ 8 = n / 262144 + 240 := by
    omega
  have next (n : Nat) : (n % 64 + 128) % 2 ^ 8 = n % 64 + 128 := by omega
  simp only [List.cons_lt_cons_iff, UInt8.lt_iff_toNat_lt, ← UInt8.toNat_inj, UInt8.toNat_ofNat',
    List.not_lt_nil, and_false, or_false, lead valid, lead (less.trans valid), next,
    Nat.add_lt_add_iff_right, Nat.add_right_cancel_iff]
  exact digits

/-- Of two lists the first one is smaller, whatever follows: they are of one length, or they begin
differently. -/
inductive Precedes : List UInt8 → List UInt8 → Prop where
  | within {front front' : List UInt8} (less : front < front')
    (same : front.length = front'.length) : Precedes front front'
  | lead {byte byte' : Nat} (less : byte < byte') (small : byte' < 256) (rest rest' : List UInt8) :
    Precedes (UInt8.ofNat byte :: rest) (UInt8.ofNat byte' :: rest')

theorem Precedes.append_lt {front front' : List UInt8} (precedes : Precedes front front')
    (back back' : List UInt8) : front ++ back < front' ++ back' := by
  cases precedes with
  | within less same => exact append_lt_append less same back back'
  | @lead byte byte' less small =>
    rw [List.cons_append, List.cons_append, List.cons_lt_cons_iff, UInt8.lt_iff_toNat_lt,
      UInt8.toNat_ofNat', UInt8.toNat_ofNat']
    exact .inl (by omega)

theorem precedes_utf8EncodeChar {c d : Char} (less : c < d) :
    Precedes (String.utf8EncodeChar c) (String.utf8EncodeChar d) := by
  have valid := toNat_lt d
  have less : c.val.toNat < d.val.toNat := less
  unfold String.utf8EncodeChar
  dsimp only
  split_ifs
  any_goals (exfalso; omega)
  -- one byte, and as many or more
  · refine .within ?_ rfl
    simp only [List.cons_lt_cons_iff, UInt8.lt_iff_toNat_lt, UInt8.toNat_ofNat']
    omega
  · exact .lead (by omega) (by omega) _ _
  · exact .lead (by omega) (by omega) _ _
  · exact .lead (by omega) (by omega) _ _
  -- two bytes, and as many or more
  · refine .within ?_ rfl
    simp only [List.cons_lt_cons_iff, UInt8.lt_iff_toNat_lt, ← UInt8.toNat_inj, UInt8.toNat_ofNat',
      List.not_lt_nil, and_false, or_false]
    omega
  · exact .lead (by omega) (by omega) _ _
  · exact .lead (by omega) (by omega) _ _
  -- three bytes, and as many or more
  · refine .within ?_ rfl
    simp only [List.cons_lt_cons_iff, UInt8.lt_iff_toNat_lt, ← UInt8.toNat_inj, UInt8.toNat_ofNat',
      List.not_lt_nil, and_false, or_false]
    omega
  · exact .lead (by omega) (by omega) _ _
  · exact .within (four_bytes_lt less valid) rfl

theorem bytes_lt_bytes {a b : String} (less : a < b) : bytes a < bytes b := by
  rw [bytes_eq, bytes_eq]
  rw [String.lt_iff_toList_lt] at less
  generalize a.toList = front at less
  generalize b.toList = back at less
  induction front generalizing back with
  | nil =>
    cases back with
    | nil => exact absurd less (List.not_lt_nil _)
    | cons c rest =>
      obtain ⟨byte, more, shape⟩ :=
        List.exists_cons_of_ne_nil (String.utf8EncodeChar_ne_nil (c := c))
      rw [List.flatMap_cons, shape]
      exact List.nil_lt_cons _ _
  | cons c rest ih =>
    cases back with
    | nil => exact absurd less (List.not_lt_nil _)
    | cons d rest' =>
      rw [List.flatMap_cons, List.flatMap_cons]
      rcases List.cons_lt_cons_iff.mp less with first | ⟨rfl, later⟩
      · exact (precedes_utf8EncodeChar first).append_lt _ _
      · exact List.append_left_lt (ih _ later)

end DesignLink.Text
