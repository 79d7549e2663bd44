import DesignLink.Proofs.Number.Decimal

/-!
The written form of numbers: the digits that stand for a finite number read back as the number, and
they are digits without needless zeros in front.
-/

namespace DesignLink.Number

open DesignLink

/-! Texts of digits. -/

def AllDigits (text : List Char) : Prop := ∀ c ∈ text, isDigit c = true

theorem allDigits_append {front back : List Char} (first : AllDigits front)
    (second : AllDigits back) : AllDigits (front ++ back) := by
  intro c member
  rcases List.mem_append.mp member with inFront | inBack
  · exact first c inFront
  · exact second c inBack

theorem allDigits_replicate (count : Nat) : AllDigits (List.replicate count '0') := by
  intro c member
  rw [List.eq_of_mem_replicate member]
  rfl

theorem isDigit_iff {c : Char} : isDigit c = true ↔ c.isDigit = true := by
  simp only [isDigit, Char.isDigit, Bool.and_eq_true, decide_eq_true_eq, Char.le_def, ge_iff_le]

theorem allDigits_toDigits (n : Nat) : AllDigits (Nat.toDigits 10 n) := fun _ member =>
  isDigit_iff.mpr (Nat.isDigit_of_mem_toDigits (by decide) (by decide) member)

theorem digitValue?_of_isDigit {c : Char} (digit : isDigit c = true) :
    digitValue? 10 c = some (c.toNat - '0'.toNat) := by
  rw [isDigit, Bool.and_eq_true, decide_eq_true_eq, decide_eq_true_eq] at digit
  have below : c.toNat ≤ 57 := digit.2
  have small : c.toNat - '0'.toNat < 10 := by
    change c.toNat - 48 < 10
    omega
  simp only [digitValue?, if_pos digit, Option.bind_some, if_pos small]

theorem ofDigits_eq {text : List Char} (digits : AllDigits text) :
    ofDigits 10 text = Nat.ofDigitChars 10 text 0 := by
  unfold ofDigits
  generalize 0 = value
  induction text generalizing value with
  | nil => rfl
  | cons c text ih =>
    rw [List.foldl_cons, digitValue?_of_isDigit (digits c (by simp)), Nat.ofDigitChars_cons,
      Nat.mul_comm 10]
    exact ih (fun other member => digits other (by simp [member])) _

theorem takeWhile_digits {digits : List Char} (all : AllDigits digits) (rest : List Char)
    (stops : ∀ c ∈ rest.head?, isDigit c = false) :
    (digits ++ rest).takeWhile isDigit = digits := by
  have noMore : rest.takeWhile isDigit = [] := by
    cases rest with
    | nil => rfl
    | cons c rest => exact List.takeWhile_cons_of_neg (by simp [stops c rfl])
  rw [List.takeWhile_append_of_pos all, noMore, List.append_nil]

theorem dropWhile_digits {digits : List Char} (all : AllDigits digits) (rest : List Char)
    (stops : ∀ c ∈ rest.head?, isDigit c = false) :
    (digits ++ rest).dropWhile isDigit = rest := by
  rw [List.dropWhile_append_of_pos all]
  cases rest with
  | nil => rfl
  | cons c rest => exact List.dropWhile_cons_of_neg (by simp [stops c rfl])

/-- A decimal as it is written: a whole part and, behind a point, the places of a fraction. -/
structure Numeral where
  whole : List Char
  places : List Char
  wholeDigits : AllDigits whole
  placeDigits : AllDigits places
  nonempty : whole ≠ []
  noZero : ∀ rest, whole = '0' :: rest → rest = []

namespace Numeral

def text (n : Numeral) : List Char :=
  if n.places.isEmpty then n.whole else n.whole ++ '.' :: n.places

theorem readDecimal?_text (n : Numeral) (negative : Bool) :
    readDecimal? negative n.text =
      some (ofDecimal negative (ofDigits 10 (n.whole ++ n.places)) (-(n.places.length : Int))) := by
  have noWhole : n.whole.isEmpty = false := by
    rw [List.isEmpty_eq_false_iff]
    exact n.nonempty
  unfold text
  split
  case isTrue noPlaces =>
    rw [List.isEmpty_iff] at noPlaces
    have take := takeWhile_digits n.wholeDigits [] (by simp)
    have drop := dropWhile_digits n.wholeDigits [] (by simp)
    rw [List.append_nil] at take drop
    simp only [readDecimal?, take, drop, noWhole, noPlaces, Bool.false_and]
    rfl
  case isFalse places =>
    have take := takeWhile_digits n.wholeDigits ('.' :: n.places)
      (by rintro c ⟨⟩; decide)
    have drop := dropWhile_digits n.wholeDigits ('.' :: n.places)
      (by rintro c ⟨⟩; decide)
    have take' := takeWhile_digits n.placeDigits [] (by simp)
    have drop' := dropWhile_digits n.placeDigits [] (by simp)
    rw [List.append_nil] at take' drop'
    simp only [readDecimal?, take, drop, take', drop', noWhole, Bool.false_and]
    rfl

end Numeral

/-! The digits of numbers. -/

theorem digitChar_eq_zero {n : Nat} (small : n < 10) (zero : n.digitChar = '0') : n = 0 := by
  have each : ∀ n < 10, n.digitChar = '0' → n = 0 := by decide
  exact each n small zero

theorem toDigits_ne_zero_cons {n : Nat} (positive : n ≠ 0) (rest : List Char) :
    Nat.toDigits 10 n ≠ '0' :: rest := by
  induction n using Nat.strongRecOn generalizing rest with
  | ind n ih =>
    intro starts
    by_cases small : n < 10
    case pos =>
      rw [Nat.toDigits_of_lt_base small] at starts
      exact positive (digitChar_eq_zero small (List.cons.inj starts).1)
    case neg =>
      have front := ih (n / 10) (by omega) (by omega)
      rw [Nat.toDigits_of_base_le (by decide) (by omega)] at starts
      cases shape : Nat.toDigits 10 (n / 10) with
      | nil => exact absurd shape Nat.toDigits_ne_nil
      | cons c more =>
        rw [shape, List.cons_append] at starts
        obtain ⟨rfl, _⟩ := List.cons.inj starts
        exact front more shape

namespace Numeral

/-- The numeral of a natural number. -/
def ofNat (n : Nat) : Numeral where
  whole := Nat.toDigits 10 n
  places := []
  wholeDigits := allDigits_toDigits n
  placeDigits := fun _ absurd_ => nomatch absurd_
  nonempty := Nat.toDigits_ne_nil
  noZero rest starts := by
    by_cases zero : n = 0
    · subst zero
      rw [Nat.toDigits_zero] at starts
      exact (List.cons.inj starts).2.symm
    · exact absurd starts (toDigits_ne_zero_cons zero rest)

theorem readDecimal?_ofNat (n : Nat) :
    readDecimal? false (ofNat n).text = some (ofDecimal false n 0) := by
  have digits : ofDigits 10 ((ofNat n).whole ++ (ofNat n).places) = n := by
    have all : (ofNat n).whole ++ (ofNat n).places = Nat.toDigits 10 n := List.append_nil _
    rw [all, ofDigits_eq (allDigits_toDigits n), Nat.ofDigitChars_ten_toDigits]
  rw [readDecimal?_text, digits]
  rfl

/-- The numeral of digits whose last ones are places. -/
def ofPlaces (digits places : Nat) (positive : digits ≠ 0)
    (fewer : places < (Nat.toDigits 10 digits).length) : Numeral where
  whole := (Nat.toDigits 10 digits).take ((Nat.toDigits 10 digits).length - places)
  places := (Nat.toDigits 10 digits).drop ((Nat.toDigits 10 digits).length - places)
  wholeDigits c member := allDigits_toDigits digits c (List.mem_of_mem_take member)
  placeDigits c member := allDigits_toDigits digits c (List.mem_of_mem_drop member)
  nonempty := by
    apply List.ne_nil_of_length_pos
    rw [List.length_take]
    omega
  noZero rest starts := by
    cases shape : Nat.toDigits 10 digits with
    | nil => exact absurd shape Nat.toDigits_ne_nil
    | cons c more =>
      obtain ⟨count, size⟩ : ∃ count, (Nat.toDigits 10 digits).length - places = count + 1 :=
        ⟨(Nat.toDigits 10 digits).length - places - 1, by omega⟩
      rw [size, shape, List.take_succ_cons] at starts
      obtain ⟨rfl, _⟩ := List.cons.inj starts
      exact absurd shape (toDigits_ne_zero_cons positive more)

def ofZeros (digits zeros : Nat) : Numeral where
  whole := ['0']
  places := List.replicate zeros '0' ++ Nat.toDigits 10 digits
  wholeDigits c member := by
    rw [List.mem_singleton.mp member]
    rfl
  placeDigits := allDigits_append (allDigits_replicate zeros) (allDigits_toDigits digits)
  nonempty := List.cons_ne_nil _ _
  noZero _ starts := (List.cons.inj starts).2.symm

end Numeral

/-! Finite numbers. -/

theorem ofDecimal_zeros {digits : Nat} (nonzero : digits ≠ 0) (negative : Bool) (zeros : Nat) :
    ∀ exponent : Int, exponent + zeros ≤ 310 →
      ofDecimal negative (digits * 10 ^ zeros) exponent =
        ofDecimal negative digits (exponent + zeros) := by
  induction zeros with
  | zero =>
    intro exponent _
    rw [Nat.pow_zero, Nat.mul_one, Int.natCast_zero, Int.add_zero]
  | succ zeros ih =>
    intro exponent low
    have nonzero' : digits * 10 ^ zeros ≠ 0 :=
      Nat.mul_ne_zero nonzero (Nat.ne_of_gt (Nat.pow_pos (by decide)))
    have moved : digits * 10 ^ (zeros + 1) = 10 * (digits * 10 ^ zeros) := by
      rw [Nat.pow_succ, ← Nat.mul_assoc, Nat.mul_comm]
    rw [moved, ofDecimal_ten nonzero' (by omega), ih (exponent + 1) (by omega)]
    congr 1
    omega

theorem toDigits_zeros {digits : Nat} (nonzero : digits ≠ 0) (zeros : Nat) :
    Nat.toDigits 10 (digits * 10 ^ zeros) =
      Nat.toDigits 10 digits ++ List.replicate zeros '0' := by
  induction zeros with
  | zero => rw [Nat.pow_zero, Nat.mul_one, List.replicate_zero, List.append_nil]
  | succ zeros ih =>
    have nonzero' : digits * 10 ^ zeros ≠ 0 :=
      Nat.mul_ne_zero nonzero (Nat.ne_of_gt (Nat.pow_pos (by decide)))
    have moved : digits * 10 ^ (zeros + 1) = 10 * (digits * 10 ^ zeros) := by
      rw [Nat.pow_succ, ← Nat.mul_assoc, Nat.mul_comm]
    rw [moved, toDigits_mul_ten nonzero', ih, List.append_assoc, List.replicate_succ']

theorem digitCount_zeros {digits : Nat} (nonzero : digits ≠ 0) (zeros : Nat) :
    digitCount (digits * 10 ^ zeros) = digitCount digits + zeros := by
  rw [digitCount, toDigits_zeros nonzero, List.length_append, List.length_replicate]
  rfl

theorem exists_numeral_digits {digits : Nat} (nonzero : digits ≠ 0) (exponent : Int) :
    ∃ n : Numeral, n.text = (Decimal.positional ⟨digits, exponent⟩).toList ∧
      ofDigits 10 (n.whole ++ n.places) = digits * 10 ^ exponent.toNat ∧
      n.places.length = (-exponent).toNat := by
  have value (n : Nat) : ofDigits 10 (Nat.toDigits 10 n) = n := by
    rw [ofDigits_eq (allDigits_toDigits n), Nat.ofDigitChars_ten_toDigits]
  cases exponent with
  | ofNat e =>
    refine ⟨.ofNat (digits * 10 ^ e), ?_, ?_, ?_⟩
    · simp [Decimal.positional, Decimal.zeros, Numeral.ofNat, Numeral.text,
        toDigits_zeros nonzero]
    · have all : (Numeral.ofNat (digits * 10 ^ e)).whole ++
          (Numeral.ofNat (digits * 10 ^ e)).places = Nat.toDigits 10 (digits * 10 ^ e) :=
        List.append_nil _
      rw [all, value]
      rfl
    · have down : (-Int.ofNat e).toNat = 0 := by
        rw [Int.ofNat_eq_natCast]
        omega
      rw [down]
      rfl
  | negSucc e =>
    have up : (Int.negSucc e).toNat = 0 := rfl
    have down : (-Int.negSucc e).toNat = e + 1 := rfl
    have size : digits.repr.length = (Nat.toDigits 10 digits).length := by
      rw [← String.length_toList, Nat.toList_repr]
    rw [up, down, Nat.pow_zero, Nat.mul_one]
    by_cases fewer : e + 1 < (Nat.toDigits 10 digits).length
    case pos =>
      have count : (Numeral.ofPlaces digits (e + 1) nonzero fewer).places.length = e + 1 := by
        simp only [Numeral.ofPlaces, List.length_drop]
        omega
      have all : (Numeral.ofPlaces digits (e + 1) nonzero fewer).whole ++
          (Numeral.ofPlaces digits (e + 1) nonzero fewer).places = Nat.toDigits 10 digits :=
        List.take_append_drop _ _
      refine ⟨.ofPlaces digits (e + 1) nonzero fewer, ?_, ?_, count⟩
      · have some_ : (Numeral.ofPlaces digits (e + 1) nonzero fewer).places.isEmpty = false := by
          rw [List.isEmpty_eq_false_iff]
          exact List.ne_nil_of_length_pos (by omega)
        simp only [Numeral.text, some_]
        simp [Decimal.positional, size, fewer, Numeral.ofPlaces]
      · rw [all, value]
    case neg =>
      refine ⟨.ofZeros digits (e + 1 - (Nat.toDigits 10 digits).length), ?_, ?_, ?_⟩
      · simp [Decimal.positional, size, fewer, Numeral.ofZeros, Numeral.text, Decimal.zeros]
      · rw [ofDigits_eq (allDigits_append (Numeral.wholeDigits _) (Numeral.placeDigits _))]
        simp only [Numeral.ofZeros, Nat.ofDigitChars_append, Nat.ofDigitChars_replicate_zero]
        have zero : Nat.ofDigitChars 10 ['0'] 0 = 0 := rfl
        rw [zero, Nat.mul_zero, Nat.ofDigitChars_ten_toDigits]
      · simp only [Numeral.ofZeros, List.length_append, List.length_replicate]
        omega

theorem exists_numeral_positional {d : Decimal} {m : Magnitude} (denotes : d.Denotes m) :
    ∃ n : Numeral, n.text = d.positional.toList ∧
      readDecimal? false n.text = some (.finite false m) := by
  obtain ⟨nonzero, reads⟩ := denotes
  rw [Decimal.readsAs_iff] at reads
  obtain ⟨digits, exponent⟩ := d
  have low : exponent ≤ 310 := exponent_le_of_finite nonzero reads
  obtain ⟨n, text, value, places⟩ := exists_numeral_digits nonzero exponent
  have moved : -((-exponent).toNat : Int) + exponent.toNat = exponent := by omega
  refine ⟨n, text, ?_⟩
  rw [Numeral.readDecimal?_text, value, places, ofDecimal_zeros nonzero false _ _ (by omega), moved]
  exact congrArg some reads

def magnitudeText (m : Magnitude) : String :=
  if m.isWhole ∧ m.units < Nat.pow 10 21 * Magnitude.unitsPerOne then
    toString (m.units / Magnitude.unitsPerOne)
  else (Decimal.shortest .upward m).positional

theorem format_finite (negative : Bool) (m : Magnitude) :
    (Number.finite negative m).format = withSign negative (magnitudeText m) := rfl

theorem units_eq_zero_iff {m : Magnitude} : m.units = 0 ↔ m = .zero := by
  constructor
  · intro noUnits
    by_cases zero : m = .zero
    · exact zero
    · exact absurd noUnits (Decimal.units_ne_zero zero)
  · rintro rfl
    rfl

theorem ofDecimal_whole {m : Magnitude} (whole : m.isWhole = true) :
    ofDecimal false (m.units / Magnitude.unitsPerOne) 0 = .finite false m := by
  have noRemainder : m.units % Magnitude.unitsPerOne = 0 := by
    rw [Magnitude.isWhole, beq_iff_eq] at whole
    exact whole
  have exact_ : m.units / Magnitude.unitsPerOne * Magnitude.unitsPerOne = m.units :=
    Nat.div_mul_cancel (Nat.dvd_of_mod_eq_zero noRemainder)
  by_cases zero : m.units / Magnitude.unitsPerOne = 0
  case pos =>
    rw [zero, Nat.zero_mul] at exact_
    rw [zero, units_eq_zero_iff.mp exact_.symm]
    rfl
  case neg =>
    rw [ofDecimal_of_nonzero zero (by decide) (by omega), exact_]
    unfold ofUnits
    have one := Magnitude.ofUnits?_exact m (Nat.one_pos)
    rw [show (0 : Int).toNat = 0 from rfl, show (-0 : Int).toNat = 0 from rfl, Nat.pow_zero, one]

theorem exists_numeral (m : Magnitude) : ∃ n : Numeral, n.text = (magnitudeText m).toList ∧
    readDecimal? false n.text = some (.finite false m) := by
  unfold magnitudeText
  split
  case isTrue whole =>
    refine ⟨.ofNat (m.units / Magnitude.unitsPerOne), ?_, ?_⟩
    · simp [Numeral.text, Numeral.ofNat]
    · rw [Numeral.readDecimal?_ofNat, ofDecimal_whole whole.1]
  case isFalse partial_ =>
    apply exists_numeral_positional
    apply Decimal.denotes_shortest
    rintro rfl
    apply partial_
    decide +kernel

/-! Reading the text of a number. -/

theorem ofUnits_negate (numerator denominator : Nat) :
    ofUnits true numerator denominator = (ofUnits false numerator denominator).negate := by
  unfold ofUnits
  cases Magnitude.ofUnits? numerator denominator <;> rfl

theorem ofDecimal_negate (digits : Nat) (exponent : Int) :
    ofDecimal true digits exponent = (ofDecimal false digits exponent).negate := by
  unfold ofDecimal
  dsimp only
  split
  case isTrue => rfl
  case isFalse =>
    split
    case isTrue => rfl
    case isFalse =>
      split
      case isTrue => rfl
      case isFalse => cases exponent <;> exact ofUnits_negate _ _

theorem readDecimal?_signed {n : Numeral} {m : Magnitude}
    (reads : readDecimal? false n.text = some (.finite false m)) (negative : Bool) :
    readDecimal? negative n.text = some (.finite negative m) := by
  cases negative with
  | false => exact reads
  | true =>
    rw [Numeral.readDecimal?_text] at reads ⊢
    rw [ofDecimal_negate, Option.some.inj reads]
    rfl

theorem Numeral.text_eq_cons (n : Numeral) :
    ∃ c rest, n.text = c :: rest ∧ isDigit c = true := by
  obtain ⟨c, rest, shape⟩ := List.exists_cons_of_ne_nil n.nonempty
  have digit : isDigit c = true := n.wholeDigits c (by rw [shape]; exact List.mem_cons_self)
  unfold text
  split
  case isTrue => exact ⟨c, rest, shape, digit⟩
  case isFalse => exact ⟨c, rest ++ '.' :: n.places, by rw [shape]; rfl, digit⟩

theorem toLower_of_isDigit {c : Char} (digit : isDigit c = true) : c.toLower = c := by
  have below : c.val ≤ '9'.val := by
    rw [isDigit, Bool.and_eq_true, decide_eq_true_eq, decide_eq_true_eq] at digit
    exact digit.2
  unfold Char.toLower
  rw [dif_neg]
  intro upper
  exact absurd (UInt32.le_trans upper.1 below) (by decide)

theorem read?_behind_sign {text : String} {negative : Bool} {c : Char} {rest : List Char}
    (shape : text.toList = (if negative then ['-'] else []) ++ c :: rest)
    (digit : isDigit c = true) :
    read? text = match String.ofList ((c :: rest).map Char.toLower) with
      | "inf" | "infinity" => some (.infinite negative)
      | "nan" => some .undefined
      | _ => readDecimal? negative (c :: rest) := by
  have noSign : c ≠ '-' ∧ c ≠ '+' := by
    constructor <;> rintro rfl <;> cases digit
  unfold read?
  rw [shape]
  cases negative with
  | true => rfl
  | false =>
    rw [if_neg Bool.false_ne_true, List.nil_append]
    split
    case h_1 negative body signs =>
      split at signs
      case h_1 same => exact absurd (List.cons.inj same).1 noSign.1
      case h_2 same => exact absurd (List.cons.inj same).1 noSign.2
      case h_3 =>
        obtain ⟨rfl, rfl⟩ := Prod.mk.inj signs
        rfl

theorem read?_of_isDigit {text : String} {negative : Bool} {c : Char} {rest : List Char}
    (shape : text.toList = (if negative then ['-'] else []) ++ c :: rest)
    (digit : isDigit c = true) : read? text = readDecimal? negative (c :: rest) := by
  have noWord (word : String) (starts : ∀ d ∈ word.toList.head?, isDigit d = false) :
      String.ofList ((c :: rest).map Char.toLower) ≠ word := by
    rintro rfl
    rw [String.toList_ofList, List.map_cons, toLower_of_isDigit digit] at starts
    rw [starts c rfl] at digit
    cases digit
  rw [read?_behind_sign shape digit]
  split
  case h_1 same => exact absurd same (noWord "inf" (by rintro d ⟨⟩; decide))
  case h_2 same => exact absurd same (noWord "infinity" (by rintro d ⟨⟩; decide))
  case h_3 same => exact absurd same (noWord "nan" (by rintro d ⟨⟩; decide))
  case h_4 => rfl

theorem read?_format (value : Number) : read? value.format = some value := by
  cases value with
  | undefined => decide
  | infinite negative => cases negative <;> decide
  | finite negative m =>
    obtain ⟨n, text, reads⟩ := exists_numeral m
    obtain ⟨c, rest, shape, digit⟩ := n.text_eq_cons
    have whole : (Number.finite negative m).format.toList =
        (if negative then ['-'] else []) ++ c :: rest := by
      rw [format_finite, withSign, ← shape, text]
      cases negative <;> simp
    rw [read?_of_isDigit whole digit, ← shape, readDecimal?_signed reads]

theorem format_injective {a b : Number} (same : a.format = b.format) : a = b := by
  have read := read?_format a
  rw [same, read?_format] at read
  exact (Option.some.inj read).symm

end DesignLink.Number
