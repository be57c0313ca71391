import VBed.Proofs.Numerals

/-!
Numerals that are read exactly. A numeral is read by one product or one quotient. Its digits and its
power of ten are exact when the digits make a number below two to the fifty-three and the power lies
within twenty-two places of the point, and then the result is the number nearest to the numeral. So
a number whose shortest numeral is that short is read back from it.
-/

namespace VBed.Json.Numeral

open Binary64 (Decimal)

def exponentValue (numeral : Numeral) : Int :=
  match numeral.exponent with
  | none => 0
  | some (negative, digits) =>
      if negative then -(Nat.ofDigitChars 10 digits 0 : Int)
      else Nat.ofDigitChars 10 digits 0

def decimal (numeral : Numeral) : Decimal :=
  ⟨Nat.ofDigitChars 10 (numeral.whole ++ numeral.fraction) 0,
    numeral.exponentValue - numeral.fraction.length⟩

/-- The digits and the power of ten of the numeral are finite numbers, without rounding. -/
def IsShort (numeral : Numeral) : Prop :=
  numeral.decimal.significand < 2 ^ 53 ∧ numeral.decimal.exponent.natAbs ≤ 22 ∧
    numeral.exponentValue.natAbs < 2 ^ 31

instance (numeral : Numeral) : Decidable numeral.IsShort :=
  inferInstanceAs (Decidable (_ ∧ _))

variable {numeral : Numeral} {significand units : Nat}

theorem representable_small (small : significand ≤ 2 ^ 53) :
    Binary64.Representable (significand * Binary64.one) := by
  rw [Binary64.one_eq]
  refine Binary64.shifted_representable small ?_
  rw [← Binary64.one_eq, Binary64.beyond, Binary64.power_eq]
  refine Nat.mul_lt_mul_of_pos_right (Nat.lt_of_le_of_lt small ?_) Binary64.one_pos
  exact Nat.pow_lt_pow_right (by decide) (by decide)

/-- Up to its twenty-second power, ten has fifty-three significant bits. -/
theorem powerUnits_small {exponent : Nat} (small : exponent ≤ 22) :
    powerUnits exponent = 10 ^ exponent * Binary64.one := by
  have shifted : 10 ^ exponent * Binary64.one = 5 ^ exponent * 2 ^ (exponent + 1074) := by
    rw [Binary64.one_eq, Binary64.unitExponent, Nat.pow_add, ← Nat.mul_assoc, ← Nat.mul_pow]
  have fives : 5 ^ exponent ≤ 2 ^ 53 :=
    Nat.le_trans (Nat.pow_le_pow_right (by decide) small) (by decide)
  have tens : 10 ^ exponent < 2 ^ Binary64.beyondExponent := by
    have small : 10 ^ exponent < 2 ^ 74 :=
      Nat.lt_of_le_of_lt (Nat.pow_le_pow_right (by decide) small) (by decide)
    refine Nat.lt_trans small ?_
    exact Nat.pow_lt_pow_right Nat.one_lt_two (by decide)
  have below : 10 ^ exponent * Binary64.one < Binary64.beyond := by
    rw [Binary64.beyond, Binary64.power_eq]
    exact Nat.mul_lt_mul_of_pos_right tens Binary64.one_pos
  rw [shifted] at below
  have representable := Binary64.shifted_representable fives below
  rw [← shifted] at representable
  exact Binary64.nearest_representable representable

/-- One exact factor or divisor gives the number nearest to the decimal. -/
theorem scale?_exact {exponent : Int} (small : exponent.natAbs ≤ 22)
    (reads : Decimal.readsAs ⟨significand, exponent⟩ units = true)
    (finite : units < Binary64.beyond) :
    scale? (significand * Binary64.one) exponent = some units := by
  have possible : exponent.natAbs ≤ maxPower := Nat.le_trans small (by decide)
  have nearest := eq_of_beq reads
  simp only [Decimal.numerator, Decimal.denominator] at nearest
  rw [scale?]
  split
  · rename_i negative
    have none : exponent.toNat = 0 := by omega
    have places : (-exponent).toNat = exponent.natAbs := by omega
    rw [none, places] at nearest
    have one : Nat.pow 10 0 = 1 := rfl
    rw [one, Nat.mul_one] at nearest
    rw [lower, if_pos possible, powerUnits_small small, Binary64.nearest_scaled Binary64.one_pos]
    exact congrArg some nearest
  · rename_i notNegative
    have none : (-exponent).toNat = 0 := by omega
    have places : exponent.toNat = exponent.natAbs := by omega
    rw [none, places] at nearest
    have value : significand * Binary64.one * (10 ^ exponent.natAbs * Binary64.one) * Nat.pow 10 0 =
        significand * Nat.pow 10 exponent.natAbs * Binary64.one * Binary64.one := by
      change _ * (10 ^ exponent.natAbs * _) * 1 = significand * 10 ^ exponent.natAbs * _ * _
      generalize Binary64.one = one
      rw [Nat.mul_one]
      ac_rfl
    have product := Binary64.nearest_congr Binary64.one_pos (Nat.pow_pos (by decide)) value
    rw [nearest] at product
    rw [raise?, if_pos possible, powerUnits_small small, product]
    exact if_pos finite

theorem significand_of_isShort (short : numeral.IsShort) :
    numeral.significand = (numeral.decimal.significand, -(numeral.fraction.length : Int)) := by
  have split : numeral.decimal.significand = Nat.ofDigitChars 10 numeral.fraction
      (Nat.ofDigitChars 10 numeral.whole 0) := Nat.ofDigitChars_append 0
  have word : numeral.decimal.significand < Text.wordCount :=
    Nat.lt_trans short.1 (by decide)
  rw [split] at word
  have whole := absorb_word (Nat.lt_of_le_of_lt (le_ofDigitChars _ _) word)
  simp [significand, whole, absorb_word word, split]

theorem clampExponent_small {exponent : Int} (small : exponent.natAbs ≤ 22) :
    clampExponent exponent = exponent := by
  rw [clampExponent, Nat.pow_eq]
  omega

/-- A short numeral is read as the number nearest to it. -/
theorem units?_of_isShort (short : numeral.IsShort) (reads : numeral.decimal.readsAs units = true)
    (finite : units < Binary64.beyond) : numeral.units? = some units := by
  obtain ⟨small, power, exponent⟩ := short
  have scaled := scale?_exact power reads finite
  have exact := Binary64.nearest_representable (representable_small (Nat.le_of_lt small))
  have sum : -(numeral.fraction.length : Int) + numeral.exponentValue =
      numeral.decimal.exponent := by
    simp only [decimal]
    omega
  rw [units?, significand_of_isShort ⟨small, power, exponent⟩]
  simp only [exact]
  cases written : numeral.exponent with
  | none =>
      have value : numeral.exponentValue = 0 := by rw [exponentValue, written]
      rw [value, Int.add_zero] at sum
      rw [← sum] at scaled
      exact scaled
  | some part =>
      obtain ⟨negative, digits⟩ := part
      have value : numeral.exponentValue = if negative then -(Nat.ofDigitChars 10 digits 0 : Int)
          else Nat.ofDigitChars 10 digits 0 := by
        rw [exponentValue, written]
      have counted : (Nat.ofDigitChars 10 digits 0 : Int) < Nat.pow 2 31 := by
        rw [Nat.pow_eq]
        rw [value] at exponent
        split at exponent <;> omega
      rw [← clampExponent_small power, ← sum, value] at scaled
      simp only [counted, if_true]
      exact scaled

theorem binary64?_of_isShort (short : numeral.IsShort)
    (representable : Binary64.Representable units)
    (reads : numeral.decimal.readsAs units = true) :
    numeral.binary64? = some (.finite numeral.negative ⟨units, representable⟩) := by
  rw [binary64?, units?_of_isShort short reads representable.1, Option.bind_eq_bind,
    Option.bind_some, Binary64.ofUnits, dif_pos representable]
  rfl

/-- A zero behind the point changes the digits, but not the value. -/
theorem equals_zeroBehind {whole : List Char} {written : Decimal} (exponent : 0 ≤ written.exponent)
    (digits : Nat.ofDigitChars 10 whole 0 = written.significand * 10 ^ written.exponent.toNat)
    (negative : Bool) : (decimal ⟨negative, whole, ['0'], none⟩).Equals written := by
  have spelt : decimal ⟨negative, whole, ['0'], none⟩ =
      ⟨written.significand * 10 ^ written.exponent.toNat * 10, -1⟩ := by
    simp [decimal, exponentValue, Nat.ofDigitChars_append, Nat.ofDigitChars_cons, digits,
      Nat.mul_comm]
  have none : (-written.exponent).toNat = 0 := by omega
  rw [spelt, Decimal.Equals]
  simp only [Decimal.numerator, Decimal.denominator, none]
  generalize Binary64.one = one
  change _ * 10 * 1 * one * 1 = _ * 10 ^ written.exponent.toNat * one * 10
  rw [Nat.mul_one, Nat.mul_one]
  ac_rfl

theorem decimal_positional {written : Decimal} (some_ : written.positional.2 ≠ [])
    (negative : Bool) :
    decimal ⟨negative, written.positional.1, written.positional.2, none⟩ = written := by
  have places := written.length_fraction
  have positive := List.length_pos_iff.mpr some_
  have whole : written.exponent.toNat = 0 := by omega
  have exponent : (0 : Int) - written.positional.2.length = written.exponent := by omega
  simp only [decimal, exponentValue, written.ofDigitChars_positional, whole, exponent, Nat.pow_zero,
    Nat.mul_one]

theorem decimal_scientific {written : Decimal} {leading : Int}
    (places : leading = written.exponent + (Nat.toDigits 10 written.significand).length - 1)
    (negative : Bool) :
    decimal ⟨negative, (Nat.toDigits 10 written.significand).take 1,
      (Nat.toDigits 10 written.significand).drop 1,
      some (leading < 0, Nat.toDigits 10 leading.natAbs)⟩ = written := by
  have some_ : 0 < (Nat.toDigits 10 written.significand).length :=
    List.length_pos_iff.mpr Nat.toDigits_ne_nil
  have value : exponentValue ⟨negative, (Nat.toDigits 10 written.significand).take 1,
      (Nat.toDigits 10 written.significand).drop 1,
      some (leading < 0, Nat.toDigits 10 leading.natAbs)⟩ = leading := by
    simp only [exponentValue, Nat.ofDigitChars_ten_toDigits, decide_eq_true_eq]
    omega
  have exponent : leading - ((Nat.toDigits 10 written.significand).drop 1).length =
      written.exponent := by
    rw [List.length_drop]
    omega
  simp only [decimal, value, exponent, List.take_append_drop, Nat.ofDigitChars_ten_toDigits]

/-- The numeral of a decimal spells a decimal of the same value. -/
theorem equals_ofDecimal (negative : Bool) (written : Decimal) :
    (ofDecimal negative written).decimal.Equals written := by
  simp only [ofDecimal]
  split
  · have places := written.length_fraction
    split
    · rename_i nothing
      have fraction := List.isEmpty_iff.mp nothing
      have digits := written.ofDigitChars_positional
      rw [fraction, List.append_nil] at digits
      rw [fraction, List.length_nil] at places
      exact equals_zeroBehind (by omega) digits negative
    · rename_i something
      rw [decimal_positional (by simpa using something)]
      exact rfl
  · rw [decimal_scientific rfl]
    exact rfl

end VBed.Json.Numeral

namespace VBed.Binary64

def IsShort (number : Binary64) : Prop :=
  ∃ numeral ∈ Json.Numeral.ofBinary64? number, numeral.IsShort

instance (number : Binary64) : Decidable number.IsShort :=
  inferInstanceAs (Decidable (∃ _ ∈ _, _))

theorem IsShort.binary64?_numeral {number : Binary64} (short : number.IsShort) :
    (Json.Numeral.ofBinary64? number).bind (·.binary64?) = some number := by
  obtain ⟨numeral, written, exact⟩ := short
  cases number with
  | finite negative magnitude =>
      cases written
      have reads := shortest_readsAs magnitude.representable .even
      rw [← (Json.Numeral.equals_ofDecimal negative _).readsAs] at reads
      have sign : (Json.Numeral.ofDecimal negative (shortest .even magnitude.units)).negative =
          negative := by
        simp only [Json.Numeral.ofDecimal]
        split <;> rfl
      rw [Json.Numeral.ofBinary64?, Option.bind_some,
        Json.Numeral.binary64?_of_isShort exact magnitude.representable reads, sign]
  | infinite negative => cases written
  | nan => cases written

end VBed.Binary64
