import DesignLink.Proofs.Number.Format
import DesignLink.Proofs.Results
import DesignLink.Wire.Doc

/-!
Numbers of documents: what is written for a finite number is scanned as one numeral.
-/

namespace DesignLink.Wire

open Number

/-- An exponent with its sign, or none. -/
inductive IsPower : List Char → Prop where
  | none : IsPower []
  | signed {sign : Char} {digits : List Char} (isSign : sign = '+' ∨ sign = '-')
    (allDigits : AllDigits digits) (nonempty : digits ≠ []) : IsPower ('e' :: sign :: digits)

def EndsNumeral (rest : List Char) : Prop :=
  ∀ c ∈ rest.head?, isDigit c = false ∧ c ≠ '.' ∧ c ≠ 'e' ∧ c ≠ 'E'

namespace Numeral

/-- The point and the places at the front of a text. -/
def splitFraction (rest : List Char) : Except Fault (List Char × List Char) :=
  match rest with
  | '.' :: more =>
    match more.takeWhile isDigit, more.dropWhile isDigit with
    | [], [] => .error .endInValue
    | [], _ => .error .invalidNumber
    | places, after => .ok ('.' :: places, after)
  | _ => .ok ([], rest)

/-- The digits of an exponent at the front of a text, behind the text that was split off before. -/
def splitPlaces (front more : List Char) : Except Fault (List Char × List Char) :=
  match more.takeWhile isDigit, more.dropWhile isDigit with
  | [], [] => .error .endInValue
  | [], _ => .error .invalidNumber
  | places, after => .ok (front ++ places, after)

/-- The exponent at the front of a text, behind the text that was split off before. -/
def splitPower (front rest : List Char) : Except Fault (List Char × List Char) :=
  match rest with
  | e :: more =>
    if e = 'e' ∨ e = 'E' then
      match more with
      | '+' :: more => splitPlaces (front ++ ['e', '+']) more
      | '-' :: more => splitPlaces (front ++ ['e', '-']) more
      | more => splitPlaces (front ++ ['e']) more
    else .ok (front, rest)
  | [] => .ok (front, rest)

theorem split_of_digits {text whole rest : List Char} (take : text.takeWhile isDigit = whole)
    (drop : text.dropWhile isDigit = rest) (nonempty : whole ≠ [])
    (noZero : ∀ more, whole = '0' :: more → more = []) :
    split text =
      match splitFraction rest with
      | .error fault => .error fault
      | .ok (fraction, rest) => splitPower (whole ++ fraction) rest := by
  unfold split
  simp only [take, drop]
  split
  case h_1 => exact absurd rfl nonempty
  case h_2 => exact absurd rfl nonempty
  case h_3 => cases noZero _ rfl
  case h_4 => rfl

theorem split_eq {text whole rest : List Char} (take : text.takeWhile isDigit = whole)
    (drop : text.dropWhile isDigit = rest) (nonempty : whole ≠ [])
    (noZero : ∀ more, whole = '0' :: more → more = []) :
    split text =
      splitFraction rest >>= fun found => splitPower (whole ++ found.1) found.2 := by
  rw [split_of_digits take drop nonempty noZero]
  cases splitFraction rest <;> rfl

theorem splitFraction_of_noPoint {rest : List Char} (noPoint : ∀ c ∈ rest.head?, c ≠ '.') :
    splitFraction rest = .ok ([], rest) := by
  unfold splitFraction
  split
  case h_1 => exact absurd rfl (noPoint '.' rfl)
  case h_2 => rfl

theorem splitFraction_places {places rest : List Char} (digits : AllDigits places)
    (nonempty : places ≠ []) (stops : ∀ c ∈ rest.head?, isDigit c = false) :
    splitFraction ('.' :: (places ++ rest)) = .ok ('.' :: places, rest) := by
  simp only [splitFraction, takeWhile_digits digits rest stops, dropWhile_digits digits rest stops]
  split
  case h_1 => exact absurd rfl nonempty
  case h_2 => exact absurd rfl nonempty
  case h_3 => rfl

theorem splitPlaces_digits (front : List Char) {digits rest : List Char}
    (allDigits : AllDigits digits) (nonempty : digits ≠ [])
    (stops : ∀ c ∈ rest.head?, isDigit c = false) :
    splitPlaces front (digits ++ rest) = .ok (front ++ digits, rest) := by
  simp only [splitPlaces, takeWhile_digits allDigits rest stops,
    dropWhile_digits allDigits rest stops]
  split
  case h_1 => exact absurd rfl nonempty
  case h_2 => exact absurd rfl nonempty
  case h_3 => rfl

theorem splitPower_power (front : List Char) {power rest : List Char} (isPower : IsPower power)
    (ends : EndsNumeral rest) :
    splitPower front (power ++ rest) = .ok (front ++ power, rest) := by
  have stops : ∀ c ∈ rest.head?, isDigit c = false := fun c member => (ends c member).1
  cases isPower with
  | none =>
    rw [List.nil_append, List.append_nil]
    cases rest with
    | nil => rfl
    | cons c more =>
      obtain ⟨-, -, small, great⟩ := ends c rfl
      simp only [splitPower, small, great, or_self, if_false]
  | signed isSign allDigits nonempty =>
    cases isSign with
    | inl plus =>
      subst plus
      have places := splitPlaces_digits (front ++ ['e', '+']) allDigits nonempty stops
      simpa [splitPower] using places
    | inr minus =>
      subst minus
      have places := splitPlaces_digits (front ++ ['e', '-']) allDigits nonempty stops
      simpa [splitPower] using places

theorem split_text (n : Number.Numeral) {power rest : List Char} (isPower : IsPower power)
    (ends : EndsNumeral rest) :
    split (n.text ++ (power ++ rest)) = .ok (n.text ++ power, rest) := by
  have stops : ∀ c ∈ (power ++ rest).head?, isDigit c = false ∧ c ≠ '.' := by
    cases isPower with
    | none => exact fun c member => ⟨(ends c member).1, (ends c member).2.1⟩
    | signed => rintro c ⟨⟩; decide
  have noDigit : ∀ c ∈ (power ++ rest).head?, isDigit c = false := fun c member =>
    (stops c member).1
  unfold Number.Numeral.text
  split
  case isTrue =>
    rw [split_eq (takeWhile_digits n.wholeDigits _ noDigit)
      (dropWhile_digits n.wholeDigits _ noDigit) n.nonempty n.noZero, splitFraction_of_noPoint fun c member => (stops c member).2]
    change splitPower (n.whole ++ []) (power ++ rest) = _
    rw [List.append_nil]
    exact splitPower_power _ isPower ends
  case isFalse some_ =>
    have nonempty : n.places ≠ [] := fun empty => some_ (by rw [empty]; rfl)
    have point : ∀ c ∈ ('.' :: (n.places ++ (power ++ rest))).head?, isDigit c = false := by
      rintro c ⟨⟩
      decide
    have shape : n.whole ++ '.' :: n.places ++ (power ++ rest) =
        n.whole ++ '.' :: (n.places ++ (power ++ rest)) := by simp
    rw [shape, split_eq (takeWhile_digits n.wholeDigits _ point)
      (dropWhile_digits n.wholeDigits _ point) n.nonempty n.noZero,
      splitFraction_places n.placeDigits nonempty noDigit]
    exact splitPower_power _ isPower ends

end Numeral

def magnitudeText (m : Magnitude) : String :=
  let d := Decimal.shortest .toEven m
  let lead : Int := d.exponent + digitCount d.digits - 1
  if m.significand = 0 then "0.0"
  else if lead < -5 ∨ 15 < lead then d.scientific
  else if 0 ≤ d.exponent then d.positional ++ ".0"
  else d.positional

theorem realText_finite (negative : Bool) (m : Magnitude) :
    Json.realText (.finite negative m) = withSign negative (magnitudeText m) := rfl

def mantissa (digits : Nat) : Number.Numeral where
  whole := (Nat.toDigits 10 digits).take 1
  places := (Nat.toDigits 10 digits).drop 1
  wholeDigits c member := allDigits_toDigits digits c (List.mem_of_mem_take member)
  placeDigits c member := allDigits_toDigits digits c (List.mem_of_mem_drop member)
  nonempty := by
    have some_ : Nat.toDigits 10 digits ≠ [] := Nat.toDigits_ne_nil
    simp [List.take_eq_nil_iff, some_]
  noZero more starts := by
    have short : ((Nat.toDigits 10 digits).take 1).length ≤ 1 := List.length_take_le _ _
    rw [starts, List.length_cons] at short
    exact List.length_eq_zero_iff.mp (by omega)

def pointZero (n : Number.Numeral) : Number.Numeral :=
  { n with places := ['0'], placeDigits := allDigits_replicate 1 }

theorem ofDigits_pointZero {n : Number.Numeral} (whole : n.places = []) :
    ofDigits 10 ((pointZero n).whole ++ (pointZero n).places) =
      10 * ofDigits 10 (n.whole ++ n.places) := by
  have all := allDigits_append n.wholeDigits (allDigits_replicate 1)
  have shape : (pointZero n).whole ++ (pointZero n).places =
      n.whole ++ List.replicate 1 '0' := rfl
  rw [shape, ofDigits_eq all, whole, List.append_nil, ofDigits_eq n.wholeDigits,
    Nat.ofDigitChars_append, Nat.ofDigitChars_replicate_zero, Nat.pow_one]

theorem exists_scientific (d : Decimal) :
    ∃ (n : Number.Numeral) (power : List Char), IsPower power ∧
      d.scientific.toList = n.text ++ power := by
  have digits : (toString d.digits).toList = Nat.toDigits 10 d.digits := Nat.toList_repr
  have exponent (n : Nat) : (toString n).toList = Nat.toDigits 10 n := Nat.toList_repr
  have front : (mantissa d.digits).text = (Nat.toDigits 10 d.digits).take 1 ++
      if (Nat.toDigits 10 d.digits).length ≤ 1 then [] else
        '.' :: (Nat.toDigits 10 d.digits).drop 1 := by
    have places : (mantissa d.digits).places = (Nat.toDigits 10 d.digits).drop 1 := rfl
    unfold Number.Numeral.text
    rw [places]
    by_cases short : (Nat.toDigits 10 d.digits).length ≤ 1
    · rw [if_pos short, if_pos (List.isEmpty_iff.mpr (List.drop_eq_nil_iff.mpr short)),
        List.append_nil]
      rfl
    · have some_ : (Nat.toDigits 10 d.digits).drop 1 ≠ [] := fun empty =>
        short (List.drop_eq_nil_iff.mp empty)
      rw [if_neg short, if_neg fun empty => some_ (List.isEmpty_iff.mp empty)]
      rfl
  unfold Decimal.scientific
  simp only [digits]
  generalize ((d.exponent : Int) + (Nat.toDigits 10 d.digits).length - 1) = lead
  refine ⟨mantissa d.digits, 'e' :: (if lead < 0 then '-' else '+') ::
    Nat.toDigits 10 lead.natAbs, .signed ?_ (allDigits_toDigits _) Nat.toDigits_ne_nil, ?_⟩
  · split
    · exact .inr rfl
    · exact .inl rfl
  · rw [front]
    by_cases short : (Nat.toDigits 10 d.digits).length ≤ 1
    · by_cases down : lead < 0 <;> simp [short, down]
    · by_cases down : lead < 0 <;> simp [short, down]

theorem toList_positional {d : Decimal} (nonzero : d.digits ≠ 0) (whole : 0 ≤ d.exponent) :
    d.positional.toList = Nat.toDigits 10 (d.digits * 10 ^ d.exponent.toNat) := by
  obtain ⟨digits, exponent⟩ := d
  cases exponent with
  | ofNat e => simp [Decimal.positional, Decimal.zeros, toDigits_zeros nonzero]
  | negSucc e => exact absurd whole (by simp)

theorem exists_numeral_document (m : Magnitude) :
    ∃ (n : Number.Numeral) (power : List Char), IsPower power ∧
      (magnitudeText m).toList = n.text ++ power := by
  unfold magnitudeText
  generalize shape : Decimal.shortest .toEven m = d
  dsimp only
  split
  case isTrue => exact ⟨pointZero (.ofNat 0), [], .none, by decide⟩
  case isFalse positive =>
    have nonzero : m ≠ .zero := by
      rintro rfl
      exact positive rfl
    have denotes := Decimal.denotes_shortest .toEven nonzero
    rw [shape] at denotes
    split
    case isTrue => exact exists_scientific _
    case isFalse =>
      split
      case isTrue whole =>
        refine ⟨pointZero (.ofNat (d.digits * 10 ^ d.exponent.toNat)), [], .none, ?_⟩
        rw [String.toList_append, List.append_nil, toList_positional denotes.1 whole]
        simp [pointZero, Number.Numeral.text, Number.Numeral.ofNat]
      case isFalse =>
        obtain ⟨n, text, -⟩ := exists_numeral_positional denotes
        exact ⟨n, [], .none, by rw [List.append_nil, text]⟩

end DesignLink.Wire
