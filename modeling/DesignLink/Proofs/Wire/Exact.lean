import DesignLink.Proofs.Wire.Scanning

/-!
Numbers that come through a document. The reader rounds twice, once for the digits and once for the
power of ten, so not every number does; a number of few digits does, because both parts are exact.
-/

namespace DesignLink

namespace Wire.Numeral

open Number Magnitude

theorem scaleOnce_down {value : Number} {sign : Bool} {a b : Magnitude} {power : Nat}
    (isFinite : value = .finite sign a)
    (isPower : Number.ofNat (Nat.pow 10 power) = .finite false b) (negative : Bool) :
    scaleOnce negative value false power =
      .ofUnits negative (a.units * unitsPerOne) b.units := by
  unfold scaleOnce
  rw [isPower, isFinite]
  dsimp only
  rw [if_neg Bool.false_ne_true]

theorem assemble_down {digits e : Nat} {exponent : Int} {m : Magnitude}
    (ofNat_digits : Number.ofNat digits = .finite false m) (down : exponent = .negSucc e)
    (negative : Bool) : assemble negative digits exponent =
      if digits = 0 then .ok (.finite negative m)
      else .ok (scaleDown 5 negative (.finite negative m) (e + 1)) := by
  -- With the exponent a variable, nothing is evaluated before the digits are a known number.
  unfold assemble
  rw [ofNat_digits, down]

theorem assemble_places {digits places : Nat} (few : digits < 2 ^ 53) (some_ : places ≠ 0)
    (near : places ≤ 22) (negative : Bool) :
    assemble negative digits (-(places : Int)) =
      .ok (ofDecimal negative digits (-(places : Int))) := by
  obtain ⟨e, rfl⟩ := Nat.exists_eq_succ_of_ne_zero some_
  obtain ⟨m, ofNat_digits, units⟩ := exists_ofNat (Nat.mul_one digits).symm few (Nat.zero_le _)
  obtain ⟨power, isPower, units'⟩ := exists_ofNat_ten near
  have exponent : (-((e + 1 : Nat) : Int)) = .negSucc e := rfl
  rw [assemble_down ofNat_digits exponent]
  by_cases none_ : digits = 0
  · rw [none_, Nat.zero_mul] at units
    rw [if_pos none_, Number.units_eq_zero_iff.mp units, ofDecimal, if_pos none_, Number.zero]
  · rw [if_neg none_, scaleDown, if_pos (by omega), scaleOnce_down rfl isPower, units, units',
      ofUnits_mul unitsPerOne_pos, Nat.pow_eq,
      ofDecimal_of_nonzero none_ (by omega) (by omega)]
    have up : (-((e + 1 : Nat) : Int)).toNat = 0 := rfl
    have down : (-(-((e + 1 : Nat) : Int))).toNat = e + 1 := by omega
    rw [up, down, Nat.pow_zero, Nat.mul_one]

theorem takeDigits_digits : ∀ (digits : List Char) (start count : Nat) (rest : List Char),
    AllDigits digits → Nat.ofDigitChars 10 digits start < wordLimit →
    (∀ c ∈ rest.head?, isDigit c = false) →
      takeDigits start count (digits ++ rest) =
        (Nat.ofDigitChars 10 digits start, count + digits.length, rest)
  | [], start, count, rest, _, _, stops => by
    cases rest with
    | nil => rfl
    | cons c rest => simp [takeDigits, stops c rfl]
  | c :: digits, start, count, rest, all, fits, stops => by
    have digit : isDigit c = true := all c List.mem_cons_self
    rw [Nat.ofDigitChars_cons, Nat.mul_comm] at fits
    have small : start * 10 + (c.toNat - '0'.toNat) < wordLimit := by
      rw [Nat.ofDigitChars_eq_ofDigitChars_zero] at fits
      have grows := Nat.le_mul_of_pos_left (start * 10 + (c.toNat - '0'.toNat))
        (Nat.pow_pos (by decide : 0 < 10) : 0 < 10 ^ digits.length)
      omega
    have later := takeDigits_digits digits _ (count + 1) rest
      (fun other member => all other (List.mem_cons_of_mem c member)) fits stops
    rw [List.cons_append, takeDigits, if_pos digit, Nat.ofDigitChars_cons, Nat.mul_comm 10]
    dsimp only
    rw [if_pos small, later, List.length_cons, Nat.add_assoc, Nat.add_comm 1]

theorem ofText_text {n : Number.Numeral} (some_ : n.places ≠ [])
    (fits : ofDigits 10 (n.whole ++ n.places) < wordLimit) (negative : Bool) :
    ofText negative n.text = (assemble negative (ofDigits 10 (n.whole ++ n.places))
      (-(n.places.length : Int))).map .real := by
  have all := allDigits_append n.wholeDigits n.placeDigits
  rw [ofDigits_eq all, Nat.ofDigitChars_append] at fits
  have whole : Nat.ofDigitChars 10 n.whole 0 < wordLimit := by
    rw [Nat.ofDigitChars_eq_ofDigitChars_zero] at fits
    have grows := Nat.le_mul_of_pos_left (Nat.ofDigitChars 10 n.whole 0)
      (Nat.pow_pos (by decide : 0 < 10) : 0 < 10 ^ n.places.length)
    omega
  have point : ∀ c ∈ ('.' :: n.places).head?, isDigit c = false := by
    rintro c ⟨⟩
    decide
  have front := takeDigits_digits n.whole 0 0 ('.' :: n.places) n.wholeDigits whole point
  have back := takeDigits_digits n.places (Nat.ofDigitChars 10 n.whole 0) 0 [] n.placeDigits fits
    (by simp)
  rw [List.append_nil] at back
  have text : n.text = n.whole ++ '.' :: n.places := by
    rw [Number.Numeral.text, if_neg]
    rwa [List.isEmpty_iff]
  unfold ofText
  rw [text, front]
  dsimp only
  have noExtra : ('.' :: n.places).takeWhile isDigit = [] := rfl
  have noDrop : ('.' :: n.places).dropWhile isDigit = '.' :: n.places := rfl
  rw [noExtra, noDrop, readTail, back, ofDigits_eq all, Nat.ofDigitChars_append]
  dsimp only
  rw [List.dropWhile_nil]
  simp

end Wire.Numeral

open Wire

namespace Number

/-- The number that is read for a written one. -/
def received? (value : Number) : Option Number :=
  (Reader.number .settled (scanned (.real value))).toOption

/-- The number is read from its own text. -/
def ReadsBack (value : Number) : Prop :=
  Reader.ofWholeText Reader.number (Json.realText value) = .ok value

theorem number_settled (mode : Mode) (doc : Doc) :
    Reader.number mode doc = Reader.number .settled doc := by
  cases doc with
  | numeral value =>
    cases value with
    | error fault => rfl
    | ok numeral => cases numeral <;> rfl
  | null | boolean | string | list | object | broken => rfl

theorem readsBack_iff (value : Number) : value.ReadsBack ↔ value.received? = some value := by
  have text : Json.realText value = (Json.real value).compact := by rw [Json.compact]
  rw [ReadsBack, text, Reader.ofWholeText_compact, received?, toOption_eq_some, number_settled]

theorem readsBack_of_text {m : Magnitude} {n : Numeral}
    (text : (Wire.magnitudeText m).toList = n.text) (some_ : n.places ≠ [])
    (few : ofDigits 10 (n.whole ++ n.places) < 2 ^ 53) (near : n.places.length ≤ 22)
    (value : ofDecimal false (ofDigits 10 (n.whole ++ n.places)) (-(n.places.length : Int)) =
      .finite false m) (negative : Bool) : (Number.finite negative m).ReadsBack := by
  have fits : ofDigits 10 (n.whole ++ n.places) < Wire.Numeral.wordLimit :=
    Nat.lt_trans few (by decide)
  have count : n.places.length ≠ 0 := fun none_ => some_ (List.length_eq_zero_iff.mp none_)
  have signed : ofDecimal negative (ofDigits 10 (n.whole ++ n.places)) (-(n.places.length : Int)) =
      .finite negative m := by
    cases negative with
    | false => exact value
    | true => rw [ofDecimal_negate, value]; rfl
  rw [readsBack_iff, received?, scanned, text, Wire.Numeral.ofText_text some_ fits,
    Wire.Numeral.assemble_places few count near, signed]
  rfl

/-- A number is read back if its digits, with the zero that is written behind the point of a whole
number, are few enough to be exact, and it is not so small that an exponent is written. -/
theorem readsBack_of_few {m : Magnitude} {digits : Nat} {exponent : Int}
    (shortest : Decimal.shortest .toEven m = ⟨digits, exponent⟩)
    (few : digits * 10 ^ (exponent + 1).toNat < 2 ^ 53)
    (near : -5 ≤ exponent + digitCount digits - 1) (negative : Bool) :
    (Number.finite negative m).ReadsBack := by
  by_cases zero : m = .zero
  · subst zero
    exact @readsBack_of_text _ (Wire.pointZero (.ofNat 0)) (by decide) (List.cons_ne_nil _ _)
      (by decide) (by decide) (by decide) negative
  have denotes := Decimal.denotes_shortest .toEven zero
  rw [shortest] at denotes
  have nonzero : digits ≠ 0 := denotes.1
  have reads : ofDecimal false digits exponent = .finite false m :=
    Decimal.readsAs_iff.mp denotes.2
  have significant : m.significand ≠ 0 := fun none_ =>
    zero (units_eq_zero_iff.mp (by rw [Magnitude.units, none_, Nat.zero_mul]))
  have count : digitCount digits + (exponent + 1).toNat ≤ 16 := by
    rw [← digitCount_zeros nonzero]
    exact (Nat.length_toDigits_le_iff (by decide) (by decide)).mpr
      (Nat.lt_trans few (by decide))
  have text : Wire.magnitudeText m = if 0 ≤ exponent then
      Decimal.positional ⟨digits, exponent⟩ ++ ".0"
    else Decimal.positional ⟨digits, exponent⟩ := by
    unfold Wire.magnitudeText
    rw [if_neg significant, shortest]
    dsimp only
    rw [if_neg (by omega)]
  obtain ⟨n, shape, value, places⟩ := exists_numeral_digits nonzero exponent
  by_cases whole : 0 ≤ exponent
  case pos =>
    have none_ : n.places = [] := List.length_eq_zero_iff.mp (by omega)
    have up : (exponent + 1).toNat = exponent.toNat + 1 := by omega
    have all : ofDigits 10 ((Wire.pointZero n).whole ++ (Wire.pointZero n).places) =
        digits * 10 ^ (exponent + 1).toNat := by
      rw [ofDigits_pointZero none_, value, up, Nat.pow_succ, Nat.mul_comm _ 10,
        Nat.mul_left_comm]
    have one : (Wire.pointZero n).places.length = 1 := rfl
    refine @readsBack_of_text _ (Wire.pointZero n) ?_ (List.cons_ne_nil _ _) ?_ ?_ ?_ negative
    · rw [text, if_pos whole, String.toList_append, ← shape, Numeral.text, none_]
      rfl
    · rw [all]
      exact few
    · rw [one]
      decide
    · have moved : -((1 : Nat) : Int) + (exponent + 1).toNat = exponent := by omega
      rw [all, one, ofDecimal_zeros nonzero false _ _ (by omega), moved, reads]
  case neg =>
    have flat : (exponent + 1).toNat = 0 := by omega
    have flat' : exponent.toNat = 0 := by omega
    rw [flat', Nat.pow_zero, Nat.mul_one] at value
    rw [flat, Nat.pow_zero, Nat.mul_one] at few
    have some_ : n.places ≠ [] := List.ne_nil_of_length_pos (by omega)
    refine readsBack_of_text ?_ some_ ?_ ?_ ?_ negative
    · rw [text, if_neg whole, shape]
    · rw [value]
      exact few
    · rw [places]
      omega
    · have moved : -((-exponent).toNat : Int) = exponent := by omega
      rw [value, places, moved, reads]

/-- The digits of the number, with a zero behind the point of a whole number, are few enough to be
exact, and it is not so small that an exponent is written. -/
def HasFewDigits (value : Number) : Prop :=
  ∃ negative m digits exponent, value = .finite negative m ∧
    Decimal.shortest .toEven m = ⟨digits, exponent⟩ ∧
    digits * 10 ^ (exponent + 1).toNat < 2 ^ 53 ∧ -5 ≤ exponent + digitCount digits - 1

theorem HasFewDigits.isFinite {value : Number} (few : value.HasFewDigits) :
    value.isFinite = true := by
  obtain ⟨_, _, _, _, rfl, -⟩ := few
  rfl

theorem HasFewDigits.readsBack {value : Number} (few : value.HasFewDigits) : value.ReadsBack := by
  obtain ⟨negative, m, digits, exponent, rfl, shortest, few, near⟩ := few
  exact readsBack_of_few shortest few near negative

end Number

end DesignLink
