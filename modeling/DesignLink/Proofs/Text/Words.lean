import DesignLink.Text.Words

/-!
Names made of words: they start with a capital letter or an underscore and go on with ASCII letters
and digits. The name of a component is its own one.
-/

namespace DesignLink.Text

theorem isAlpha_iff {c : Char} : c.isAlpha = true ↔
    (65 ≤ c.toNat ∧ c.toNat ≤ 90) ∨ (97 ≤ c.toNat ∧ c.toNat ≤ 122) := by
  have ranges : c.isAlpha = (decide (c.val ≥ 'A'.val ∧ c.val ≤ 'Z'.val) ||
      (decide (c.val ≥ 'a'.val) && decide (c.val ≤ 'z'.val))) := rfl
  rw [ranges, Bool.or_eq_true, Bool.and_eq_true, decide_eq_true_eq, decide_eq_true_eq,
    decide_eq_true_eq]
  rfl

theorem isAlpha_of_isUpper {c : Char} (upper : c.isUpper = true) : c.isAlpha = true :=
  Bool.or_eq_true_iff.mpr (.inl upper)

theorem toNat_of_isAlphanum {c : Char} (isPart : c.isAlphanum = true) : c.toNat < 128 := by
  simp only [Char.isAlphanum, Char.isDigit, Bool.or_eq_true, isAlpha_iff, Bool.and_eq_true,
    decide_eq_true_eq, UInt32.le_iff_toNat_le, ge_iff_le] at isPart
  change ((65 ≤ c.toNat ∧ c.toNat ≤ 90) ∨ (97 ≤ c.toNat ∧ c.toNat ≤ 122)) ∨
    (48 ≤ c.toNat ∧ c.toNat ≤ 57) at isPart
  omega

/-- Letters and digits are among the first 128 characters, where each one can be looked at. -/
theorem of_isAlphanum {P : Char → Prop} {c : Char} (isPart : c.isAlphanum = true)
    (each : ∀ n : Fin 128, (Char.ofNat n).isAlphanum = true → P (Char.ofNat n)) : P c := by
  have one := each ⟨c.toNat, toNat_of_isAlphanum isPart⟩
  rw [Char.ofNat_toNat] at one
  exact one isPart

theorem toUpper_of_isAlphanum {c : Char} (isPart : c.isAlphanum = true) :
    (c.toUpper.isUpper || c.toUpper.isDigit) = true :=
  of_isAlphanum (P := fun c => (c.toUpper.isUpper || c.toUpper.isDigit) = true) isPart (by decide)

theorem toLower_of_isAlphanum {c : Char} (isPart : c.isAlphanum = true) :
    c.toLower.isAlphanum = true ∧ c.toLower.isUpper = false :=
  of_isAlphanum (P := fun c => c.toLower.isAlphanum = true ∧ c.toLower.isUpper = false) isPart
    (by decide)

theorem isAlphanum_of_capital {c : Char} (capital : (c.isUpper || c.isDigit) = true) :
    c.isAlphanum = true := by
  rw [Bool.or_eq_true] at capital
  rcases capital with upper | digit
  · simp [Char.isAlphanum, isAlpha_of_isUpper upper]
  · simp [Char.isAlphanum, digit]

theorem all_joinWords : ∀ (atStart : Bool) (text : List Char),
    (joinWords atStart text).all Char.isAlphanum = true
  | _, [] => rfl
  | atStart, c :: rest => by
    rw [joinWords]
    split
    case isTrue isPart =>
      rw [List.all_cons, all_joinWords false rest, Bool.and_true]
      split
      case isTrue => exact isAlphanum_of_capital (toUpper_of_isAlphanum isPart)
      case isFalse => exact isPart
    case isFalse => exact all_joinWords true rest

theorem head_joinWords : ∀ {text rest : List Char} {c : Char}, joinWords true text = c :: rest →
    (c.isUpper || c.isDigit) = true
  | d :: text, rest, c, same => by
    rw [joinWords] at same
    split at same
    case isTrue isPart =>
      obtain rfl : d.toUpper = c := (List.cons.inj same).1
      exact toUpper_of_isAlphanum isPart
    case isFalse => exact head_joinWords same

/-- The name of a component is a capital letter with letters and digits behind it, or an underscore
in front of a digit with letters and digits behind it. -/
theorem pascal_cases (name : String) : ∃ c rest, rest.all Char.isAlphanum = true ∧
    ((pascal name).toList = c :: rest ∧ c.isUpper = true ∨
      (pascal name).toList = '_' :: c :: rest ∧ c.isDigit = true) := by
  rw [pascal]
  split
  case h_1 => exact ⟨'C', "omponent".toList, by decide, .inl (by decide)⟩
  case h_2 c rest words =>
    have all := all_joinWords true name.toList
    have first := head_joinWords words
    rw [words, List.all_cons, Bool.and_eq_true] at all
    rw [String.toList_ofList]
    refine ⟨c, rest, all.2, ?_⟩
    split
    case isTrue digit => exact .inr ⟨rfl, digit⟩
    case isFalse noDigit => exact .inl ⟨rfl, by simpa [noDigit] using first⟩

theorem exists_pascal (name : String) : ∃ c rest, (pascal name).toList = c :: rest ∧
    (c.isUpper = true ∨ c = '_') ∧ rest.all Char.isAlphanum = true := by
  obtain ⟨c, rest, all, ⟨shape, upper⟩ | ⟨shape, digit⟩⟩ := pascal_cases name
  · exact ⟨c, rest, shape, .inl upper, all⟩
  · have isPart : c.isAlphanum = true := by simp [Char.isAlphanum, digit]
    exact ⟨'_', c :: rest, shape, .inr rfl, by rw [List.all_cons, isPart, all]; rfl⟩

/-- A word that starts with neither a capital letter nor an underscore is no name of a component. -/
theorem pascal_notMem_of_small {words : List String}
    (small : ∀ word ∈ words, word.toList.head?.all (fun c => c.isUpper || c = '_') = false)
    (name : String) : pascal name ∉ words := by
  obtain ⟨c, rest, shape, starts, -⟩ := exists_pascal name
  intro member
  have first := small _ member
  rw [shape, List.head?_cons, Option.all_some] at first
  simp only [Bool.or_eq_false_iff, decide_eq_false_iff_not] at first
  rcases starts with upper | underscore
  · rw [first.1] at upper
    cases upper
  · exact first.2 underscore

/-! Names of components as they are. -/

theorem toUpper_of_capital {c : Char} (capital : (c.isUpper || c.isDigit) = true) :
    c.toUpper = c :=
  of_isAlphanum (P := fun c => (c.isUpper || c.isDigit) = true → c.toUpper = c)
    (isAlphanum_of_capital capital) (by decide) capital

theorem joinWords_of_alphanum {text : List Char} (all : text.all Char.isAlphanum = true) :
    joinWords false text = text := by
  induction text with
  | nil => rfl
  | cons c rest ih =>
    rw [List.all_cons, Bool.and_eq_true] at all
    rw [joinWords, if_pos all.1, ih all.2]
    rfl

theorem joinWords_of_capital {c : Char} {rest : List Char}
    (capital : (c.isUpper || c.isDigit) = true) (all : rest.all Char.isAlphanum = true) :
    joinWords true (c :: rest) = c :: rest := by
  rw [joinWords, if_pos (isAlphanum_of_capital capital), if_pos rfl, toUpper_of_capital capital,
    joinWords_of_alphanum all]

theorem pascal_of_joinWords {name : String} {c : Char} {rest : List Char}
    (words : joinWords true name.toList = c :: rest) :
    pascal name = String.ofList (if c.isDigit then '_' :: c :: rest else c :: rest) := by
  rw [pascal, words]

theorem pascal_eq_self {name : String} {c : Char} {rest : List Char}
    (all : rest.all Char.isAlphanum = true)
    (spelled : name.toList = c :: rest ∧ c.isUpper = true ∨
      name.toList = '_' :: c :: rest ∧ c.isDigit = true) : pascal name = name := by
  rw [← String.toList_inj]
  rcases spelled with ⟨shape, upper⟩ | ⟨shape, digit⟩
  · have capital : (c.isUpper || c.isDigit) = true := by rw [upper, Bool.true_or]
    have noDigit : ¬ c.isDigit = true :=
      of_isAlphanum (P := fun c => c.isUpper = true → ¬ c.isDigit = true)
        (isAlphanum_of_capital capital) (by decide) upper
    have words : joinWords true name.toList = c :: rest := by
      rw [shape, joinWords_of_capital capital all]
    rw [pascal_of_joinWords words, if_neg noDigit, String.toList_ofList, shape]
  · have capital : (c.isUpper || c.isDigit) = true := by rw [digit, Bool.or_true]
    have words : joinWords true name.toList = c :: rest := by
      rw [shape, joinWords, if_neg (by decide), joinWords_of_capital capital all]
    rw [pascal_of_joinWords words, if_pos digit, String.toList_ofList, shape]

theorem pascal_pascal (name : String) : pascal (pascal name) = pascal name := by
  obtain ⟨c, rest, all, spelled⟩ := pascal_cases name
  exact pascal_eq_self all spelled

/-! Names of properties. -/

/-- The name of a property: letters and digits of ASCII, at least one, with no capital letter in
front. -/
def IsPropName (name : String) : Prop :=
  ∃ c rest, name.toList = c :: rest ∧ c.isUpper = false ∧ (c :: rest).all Char.isAlphanum = true

theorem isPropName_camel (name : String) : IsPropName (camel name) := by
  obtain ⟨c, rest, all, start⟩ := pascal_cases name
  have isPart : c.isAlphanum = true := by
    apply isAlphanum_of_capital
    rcases start with ⟨-, upper⟩ | ⟨-, digit⟩
    · rw [upper, Bool.true_or]
    · rw [digit, Bool.or_true]
  have noUnderscore : c ≠ '_' := by
    rintro rfl
    exact absurd isPart (by decide)
  have dropped : (pascal name).toList.dropWhile (· = '_') = c :: rest := by
    rcases start with ⟨shape, -⟩ | ⟨shape, -⟩
    · simp [shape, noUnderscore]
    · simp [shape, noUnderscore]
  obtain ⟨isPart', small⟩ := toLower_of_isAlphanum isPart
  refine ⟨c.toLower, rest, ?_, small, ?_⟩
  · rw [camel, dropped]
    exact String.toList_ofList
  · rw [List.all_cons, isPart', all]
    rfl

end DesignLink.Text
