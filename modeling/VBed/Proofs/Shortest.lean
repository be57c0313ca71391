import Mathlib.Algebra.Group.Nat.Defs
import VBed.Binary64.Text
import VBed.Proofs.Digits

/-!
The text of a number gives the number back. A decimal is rounded by its value alone, so the
shortest decimal of a magnitude still rounds to it once its zeros are trimmed, and the digits
around the point of the plain text hold the value of the decimal they come from.
-/

namespace VBed.Binary64

theorem nearestWhole_scaled {scale : Nat} (positive : 0 < scale) (numerator denominator : Nat) :
    nearestWhole (numerator * scale) (denominator * scale) =
      nearestWhole numerator denominator := by
  have quotient : numerator * scale / (denominator * scale) = numerator / denominator :=
    Nat.mul_div_mul_right _ _ positive
  have remainder : numerator * scale % (denominator * scale) = numerator % denominator * scale :=
    Nat.mul_mod_mul_right scale numerator denominator
  have twice : 2 * (numerator % denominator * scale) = 2 * (numerator % denominator) * scale :=
    (Nat.mul_assoc _ _ _).symm
  simp only [nearestWhole, quotient, remainder, twice, Nat.mul_lt_mul_right positive]

theorem nearest_scaled {scale : Nat} (positive : 0 < scale) (numerator denominator : Nat) :
    nearest (numerator * scale) (denominator * scale) = nearest numerator denominator := by
  have quotient : numerator * scale / (denominator * scale) = numerator / denominator :=
    Nat.mul_div_mul_right _ _ positive
  simp only [nearest, quotient]
  rw [Nat.mul_right_comm denominator scale, nearestWhole_scaled positive]

/-- Rounding sees a fraction only by its value. -/
theorem nearest_congr {numerator denominator otherNumerator otherDenominator : Nat}
    (positive : 0 < denominator) (otherPositive : 0 < otherDenominator)
    (same : numerator * otherDenominator = otherNumerator * denominator) :
    nearest numerator denominator = nearest otherNumerator otherDenominator := by
  rw [← nearest_scaled otherPositive numerator, ← nearest_scaled positive otherNumerator, same,
    Nat.mul_comm denominator]

theorem nearest_representable {units : Nat} (representable : Representable units) :
    nearest units 1 = units := by
  have divides : Nat.pow 2 (units.log2 - 52) ∣ units := Nat.dvd_of_mod_eq_zero representable.2
  have exact : units % Nat.pow 2 (units.log2 - 52) = 0 := representable.2
  have positive := power_pos (units.log2 - 52)
  simp only [nearest, spacing, Nat.div_one, Nat.one_mul, nearestWhole, exact, Nat.mul_zero,
    positive, if_true]
  exact Nat.div_mul_cancel divides

namespace Decimal

theorem denominator_pos (decimal : Decimal) : 0 < decimal.denominator :=
  Nat.pow_pos (by decide)

def Equals (first second : Decimal) : Prop :=
  first.numerator * second.denominator = second.numerator * first.denominator

theorem Equals.readsAs {first second : Decimal} (equal : first.Equals second) (units : Nat) :
    first.readsAs units = second.readsAs units := by
  rw [Decimal.readsAs, nearest_congr first.denominator_pos second.denominator_pos equal,
    Decimal.readsAs]

theorem power_succ (exponent : Nat) : Nat.pow 10 (exponent + 1) = Nat.pow 10 exponent * 10 :=
  rfl

theorem equals_shifted (significand : Nat) (exponent : Int) :
    Equals ⟨significand * 10, exponent⟩ ⟨significand, exponent + 1⟩ := by
  simp only [Equals, numerator, denominator]
  generalize one = units
  -- A negative exponent is in the denominators alone, any other in the numerators alone.
  cases Int.lt_or_le exponent 0 with
  | inl negative =>
      have places : (-exponent).toNat = (-(exponent + 1)).toNat + 1 := by omega
      have none : exponent.toNat = 0 ∧ (exponent + 1).toNat = 0 := by omega
      rw [places, none.1, none.2, power_succ]
      grind
  | inr positive =>
      have zeros : (exponent + 1).toNat = exponent.toNat + 1 := by omega
      have none : (-exponent).toNat = 0 ∧ (-(exponent + 1)).toNat = 0 := by omega
      rw [zeros, none.1, none.2, power_succ]
      grind

theorem readsAs_trimZeros (decimal : Decimal) (fuel units : Nat) :
    (decimal.trimZeros fuel).readsAs units = decimal.readsAs units := by
  induction fuel generalizing decimal with
  | zero => rfl
  | succ fuel ih =>
      rw [trimZeros]
      split
      · rename_i trailing
        have tens : decimal.significand / 10 * 10 = decimal.significand := by omega
        have shifted := equals_shifted (decimal.significand / 10) decimal.exponent
        rw [ih, ← shifted.readsAs, tens]
      · rfl

/-- A decimal that is a whole count of units reads as that count. -/
theorem readsAs_of_whole {decimal : Decimal} {units : Nat} (representable : Representable units)
    (whole : decimal.numerator = units * decimal.denominator) :
    decimal.readsAs units = true := by
  have value : decimal.numerator * 1 = units * decimal.denominator := by omega
  rw [readsAs, nearest_congr decimal.denominator_pos Nat.one_pos value,
    nearest_representable representable]
  exact beq_self_eq_true units

theorem readsAs_exactDecimal {units : Nat} (representable : Representable units) :
    (exactDecimal units).readsAs units = true := by
  have powers : ∀ exponent, Nat.pow 10 exponent = Nat.pow 5 exponent * Nat.pow 2 exponent :=
    Nat.mul_pow 5 2
  have power : Nat.pow 10 unitExponent = Nat.pow 5 unitExponent * one := by
    unfold one
    exact powers unitExponent
  refine readsAs_of_whole representable ?_
  have zeros : (-(unitExponent : Int)).toNat = 0 := by omega
  have places : (- -(unitExponent : Int)).toNat = unitExponent := by omega
  simp only [exactDecimal, numerator, denominator, zeros, places, power]
  generalize Nat.pow 5 unitExponent = fives
  generalize one = twos
  exact (congrArg (· * twos) (Nat.mul_one (units * fives))).trans (Nat.mul_assoc units fives twos)

end Decimal

/-- The shortest decimal of a magnitude reads back as the magnitude. -/
theorem shortest_readsAs {units : Nat} (representable : Representable units) (tie : Tie) :
    (shortest tie units).readsAs units = true := by
  rw [shortest]
  split
  · rename_i zero
    rw [zero]
    refine Decimal.readsAs_of_whole representable_zero ?_
    simp only [Decimal.numerator, Nat.zero_mul]
  · rw [Decimal.readsAs_trimZeros]
    -- Where no decimal with few digits reads back, the exact one is taken.
    cases found : (List.range 17).findSome? fun (count : Nat) =>
      (neighbours tie units (magnitudeExponent units - (count + 1))).find? (·.readsAs units) with
    | none => exact Decimal.readsAs_exactDecimal representable
    | some decimal =>
        obtain ⟨count, _, near⟩ := List.exists_of_findSome?_eq_some found
        have reads := List.find?_some near
        rw [Option.getD_some]
        exact reads

namespace Decimal

/-- The digits behind the point are as many as the places of the decimal. -/
theorem length_fraction (decimal : Decimal) :
    decimal.positional.2.length = (-decimal.exponent).toNat := by
  simp only [positional]
  split
  · rename_i whole
    exact whole.symm
  · split
    · simp only [List.length_drop]
      omega
    · simp only [List.length_append, List.length_replicate]
      omega

/-- The digits around the point, read as one number. -/
theorem ofDigitChars_positional (decimal : Decimal) :
    Nat.ofDigitChars 10 (decimal.positional.1 ++ decimal.positional.2) 0 =
      decimal.significand * 10 ^ decimal.exponent.toNat := by
  simp only [positional]
  split
  · simp only [List.append_nil, Nat.ofDigitChars_append, Nat.ofDigitChars_replicate_zero,
      Nat.ofDigitChars_ten_toDigits]
    exact Nat.mul_comm _ _
  · rename_i places
    have whole : decimal.exponent.toNat = 0 := by omega
    rw [whole, Nat.pow_zero, Nat.mul_one]
    split
    · simp only [List.take_append_drop, Nat.ofDigitChars_ten_toDigits]
    · simp only [List.cons_append, List.nil_append, Nat.ofDigitChars_cons,
        Nat.ofDigitChars_append, Nat.ofDigitChars_replicate_zero]
      simp

theorem isDigit_of_mem_positional {decimal : Decimal} {character : Char}
    (member : character ∈ decimal.positional.1 ∨ character ∈ decimal.positional.2) :
    character.isDigit = true := by
  simp only [positional] at member
  split at member
  · simp only [List.mem_append, List.not_mem_nil, or_false] at member
    rcases member with digit | zero
    · exact Text.isDigit_of_mem digit
    · rw [List.eq_of_mem_replicate zero]
      decide
  · split at member
    · rcases member with digit | digit
      · exact Text.isDigit_of_mem (List.mem_of_mem_take digit)
      · exact Text.isDigit_of_mem (List.mem_of_mem_drop digit)
    · simp only [List.mem_singleton, List.mem_append] at member
      rcases member with zero | zero | digit
      · rw [zero]
        decide
      · rw [List.eq_of_mem_replicate zero]
        decide
      · exact Text.isDigit_of_mem digit

theorem positional_whole_ne_nil (decimal : Decimal) : decimal.positional.1 ≠ [] := by
  simp only [positional]
  split
  · simp [Nat.toDigits_ne_nil]
  · split
    · rename_i places inside
      simp only [ne_eq, List.take_eq_nil_iff, not_or]
      exact ⟨by omega, Nat.toDigits_ne_nil⟩
    · simp

theorem units_eq_of_positional {first second : Decimal} {units otherUnits : Nat}
    (same : first.positional = second.positional) (reads : first.readsAs units = true)
    (otherReads : second.readsAs otherUnits = true) : units = otherUnits := by
  have places : (-first.exponent).toNat = (-second.exponent).toNat := by
    rw [← length_fraction, ← length_fraction, same]
  have digits : first.significand * 10 ^ first.exponent.toNat =
      second.significand * 10 ^ second.exponent.toNat := by
    rw [← ofDigitChars_positional, ← ofDigitChars_positional, same]
  -- Digits and places settle the value, though not the significand and the exponent.
  have equal : first.Equals second := by
    have numerators : first.numerator = second.numerator := congrArg (· * one) digits
    have denominators : first.denominator = second.denominator := congrArg (Nat.pow 10) places
    rw [Equals, numerators, denominators]
  rw [equal.readsAs] at reads
  exact (eq_of_beq reads).symm.trans (eq_of_beq otherReads)

end Decimal

theorem eq_finite {number : Binary64} (finite : number.isFinite = true) :
    ∃ negative magnitude, number = .finite negative magnitude := by
  cases number with
  | finite negative magnitude => exact ⟨negative, magnitude, rfl⟩
  | infinite negative => cases finite
  | nan => cases finite

def plainDigits (magnitude : Magnitude) : List Char × List Char :=
  (shortest .up magnitude.units).positional

theorem toList_plainText (negative : Bool) (magnitude : Magnitude) :
    (Binary64.finite negative magnitude).plainText.toList =
      signText negative ++ (plainDigits magnitude).1 ++
        if (plainDigits magnitude).2.isEmpty then [] else '.' :: (plainDigits magnitude).2 := by
  rw [plainText, plainDigits]
  exact String.toList_ofList

theorem plainDigits_injective : Function.Injective plainDigits := by
  intro first second same
  have units := Decimal.units_eq_of_positional same (shortest_readsAs first.representable .up)
    (shortest_readsAs second.representable .up)
  obtain ⟨units, representable⟩ := first
  subst units
  rfl

/-- The plain text of a finite number has digits, a point and a sign. -/
theorem mem_plainText {number : Binary64} (finite : number.isFinite = true) {character : Char}
    (member : character ∈ number.plainText.toList) :
    character.isDigit = true ∨ character = '.' ∨ character = '-' := by
  obtain ⟨negative, magnitude, rfl⟩ := eq_finite finite
  rw [toList_plainText, List.mem_append, List.mem_append] at member
  rcases member with (sign | whole) | fraction
  · cases negative
    · simp [signText] at sign
    · simp_all [signText]
  · exact .inl (Decimal.isDigit_of_mem_positional (.inl whole))
  · split at fraction
    · simp at fraction
    · rcases List.mem_cons.mp fraction with point | digit
      · exact .inr (.inl point)
      · exact .inl (Decimal.isDigit_of_mem_positional (.inr digit))

/-- The digits before the point start with a digit, not with a sign. -/
theorem plainDigits_ne_minus (magnitude : Magnitude) (rest tail : List Char) :
    (plainDigits magnitude).1 ++ rest ≠ '-' :: tail := by
  intro signed
  cases digits : (plainDigits magnitude).1 with
  | nil => exact Decimal.positional_whole_ne_nil _ digits
  | cons first others =>
      have leading : first ∈ (plainDigits magnitude).1 := by simp [digits]
      have digit : first.isDigit = true := Decimal.isDigit_of_mem_positional (.inl leading)
      rw [digits, List.cons_append] at signed
      rw [(List.cons.inj signed).1] at digit
      exact absurd digit (by decide)

theorem isDigit_of_head?_fraction (digits : List Char) :
    ∀ character ∈ (if digits.isEmpty then [] else '.' :: digits).head?,
      character.isDigit = false := by
  intro character member
  split at member
  · simp at member
  · simp only [List.head?_cons, Option.mem_def, Option.some.injEq] at member
    rw [← member]
    decide

theorem fraction_injective {digits other : List Char}
    (same : (if digits.isEmpty then [] else '.' :: digits) =
      if other.isEmpty then [] else '.' :: other) : digits = other := by
  cases digits <;> cases other <;> simp_all

/-- Finite numbers with one plain text are the same: the sign is no digit, and the digits before
the point end where the point stands. -/
theorem plainText_injective {first second : Binary64} (finite : first.isFinite = true)
    (otherFinite : second.isFinite = true) (same : first.plainText = second.plainText) :
    first = second := by
  obtain ⟨negative, magnitude, rfl⟩ := eq_finite finite
  obtain ⟨otherNegative, otherMagnitude, rfl⟩ := eq_finite otherFinite
  have texts := congrArg String.toList same
  simp only [toList_plainText, List.append_assoc] at texts
  have signs : negative = otherNegative := by
    cases negative <;> cases otherNegative
    · rfl
    · exact absurd texts (plainDigits_ne_minus magnitude _ _)
    · exact absurd texts.symm (plainDigits_ne_minus otherMagnitude _ _)
    · rfl
  subst signs
  obtain ⟨whole, fractions⟩ := Text.run_append_inj
    (fun _ member => Decimal.isDigit_of_mem_positional (.inl member))
    (fun _ member => Decimal.isDigit_of_mem_positional (.inl member))
    (isDigit_of_head?_fraction _) (isDigit_of_head?_fraction _) (List.append_cancel_left texts)
  rw [plainDigits_injective (Prod.ext whole (fraction_injective fractions))]

end VBed.Binary64
