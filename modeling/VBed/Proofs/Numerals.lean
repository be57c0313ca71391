import VBed.Json.Binary64
import VBed.Proofs.JsonText
import VBed.Proofs.Racking

/-!
The numerals of JSON that stand for numbers. An integer is read back from its numeral, and as long
as it fits in a machine word it is also a finite number. The numeral of a finite number is plain:
its shortest decimal has no leading zero, unless it is zero.
-/

namespace VBed.Json.Numeral

theorem wholeIsPlain_append {run rest : List Char} (some_ : run ≠ [])
    (start : ∀ others, run ≠ '0' :: others) : wholeIsPlain (run ++ rest) = true := by
  cases run with
  | nil => exact absurd rfl some_
  | cons first others =>
      have other : first ≠ '0' := by
        rintro rfl
        exact start others rfl
      rw [List.cons_append, wholeIsPlain]
      intro rest same
      exact other (List.cons.inj same).1

theorem wholeIsPlain_toDigits (number : Nat) : wholeIsPlain (Nat.toDigits 10 number) = true := by
  by_cases zero : number = 0
  · subst zero
    decide
  · rw [← List.append_nil (Nat.toDigits 10 number)]
    exact wholeIsPlain_append Nat.toDigits_ne_nil (Text.toDigits_ne_zero_cons zero)

theorem plain_ofInt (number : Int) : (ofInt number).Plain where
  whole := Nat.toDigits_ne_nil
  wholeDigits _ := Text.isDigit_of_mem
  wholeStart := wholeIsPlain_toDigits _
  fractionDigits := by simp [ofInt]
  exponent := by simp [ofInt]
  exponentDigits := by simp [ofInt]

theorem wholeNumber?_ofInt (number : Int) : (ofInt number).wholeNumber? = some number.natAbs := by
  simp [wholeNumber?, ofInt]

theorem natural?_ofInt (number : Nat) : (ofInt number).natural? = some number := by
  have unsigned : (ofInt number).negative = false := by simp [ofInt]
  rw [natural?, unsigned, wholeNumber?_ofInt]
  rfl

theorem integer?_ofInt (number : Int) : (ofInt number).integer? = some number := by
  rw [integer?, wholeNumber?_ofInt]
  by_cases negative : number < 0
  · have sign : (ofInt number).negative = true := by simpa [ofInt] using negative
    have differs : number.natAbs ≠ 0 := by omega
    have value : -(number.natAbs : Int) = number := by omega
    calc
      _ = some (-(number.natAbs : Int)) := by simp [sign, differs, guard]
      _ = some number := congrArg some value
  · have sign : (ofInt number).negative = false := by simpa [ofInt] using negative
    have value : (number.natAbs : Int) = number := by omega
    calc
      _ = some (number.natAbs : Int) := by simp [sign]
      _ = some number := congrArg some value

theorem le_ofDigitChars (digits : List Char) (start : Nat) :
    start ≤ Nat.ofDigitChars 10 digits start := by
  induction digits generalizing start with
  | nil => simp
  | cons digit rest ih =>
      rw [Nat.ofDigitChars_cons]
      have next := ih (10 * start + (digit.toNat - '0'.toNat))
      omega

/-- Digits are all taken into the significand when the number is a machine word. -/
theorem absorb_word {digits : List Char} {start : Nat}
    (word : Nat.ofDigitChars 10 digits start < Text.wordCount) :
    absorb start digits = (Nat.ofDigitChars 10 digits start, []) := by
  induction digits generalizing start with
  | nil => simp [absorb]
  | cons digit rest ih =>
      rw [Nat.ofDigitChars_cons, Nat.mul_comm] at word ⊢
      have next := le_ofDigitChars rest (start * 10 + (digit.toNat - '0'.toNat))
      rw [absorb, if_pos (by omega), ih word]

theorem significand_ofInt {number : Int} (word : number.natAbs < Text.wordCount) :
    (ofInt number).significand = (number.natAbs, 0) := by
  have value : Nat.ofDigitChars 10 (Nat.toDigits 10 number.natAbs) 0 = number.natAbs :=
    Nat.ofDigitChars_ten_toDigits
  have whole := absorb_word (value.symm ▸ word)
  rw [value] at whole
  simp [significand, ofInt, whole, absorb]

theorem representable_one : Binary64.Representable Binary64.one := by
  have below : 1 * 2 ^ Binary64.unitExponent < Binary64.beyond := by
    rw [← Binary64.one_eq, Binary64.beyond, Binary64.power_eq]
    have many : 1 < 2 ^ Binary64.beyondExponent := Nat.one_lt_two_pow (by decide)
    exact Nat.mul_lt_mul_of_pos_right many Binary64.one_pos
  have shifted := Binary64.shifted_representable (by decide) below
  rwa [Nat.one_mul, ← Binary64.one_eq] at shifted

theorem powerUnits_zero : powerUnits 0 = Binary64.one := by
  have power : Nat.pow 10 0 = 1 := rfl
  rw [powerUnits, power, Nat.one_mul, Binary64.nearest_representable representable_one]

/-- A numeral without an exponent and without places is not scaled. -/
theorem scale?_zero {units : Nat} (representable : Binary64.Representable units) :
    scale? units 0 = some units := by
  have product : Binary64.nearest (units * Binary64.one) Binary64.one = units := by
    have scaled := Binary64.nearest_scaled Binary64.one_pos units 1
    rwa [Nat.one_mul, Binary64.nearest_representable representable] at scaled
  have below := representable.1
  rw [scale?, if_neg (by decide), Int.natAbs_zero, raise?, if_pos (Nat.zero_le _), powerUnits_zero,
    product]
  exact if_pos below

theorem representable_word {number : Nat} (word : number < Text.wordCount) :
    Binary64.Representable (Binary64.nearest (number * Binary64.one) 1) := by
  obtain ⟨magnitude, finite⟩ := Binary64.ofNat_finite word
  by_contra other
  rw [Binary64.ofNat, Binary64.round, Binary64.ofUnits, dif_neg other] at finite
  cases finite

/-- A machine word, or the negative of one, is a finite number. -/
theorem binary64?_ofInt {number : Int} (word : number.natAbs < Text.wordCount) :
    (ofInt number).binary64?.isSome = true := by
  have representable := representable_word word
  have units : (ofInt number).units? =
      some (Binary64.nearest (number.natAbs * Binary64.one) 1) := by
    rw [units?, significand_ofInt word]
    exact scale?_zero representable
  generalize Binary64.nearest (number.natAbs * Binary64.one) 1 = count at units representable
  rw [binary64?, units, Option.bind_eq_bind, Option.bind_some, Binary64.ofUnits,
    dif_pos representable]
  rfl

section Decimals

def IsLed (decimal : Binary64.Decimal) : Prop :=
  decimal.significand = 0 → decimal = ⟨0, 0⟩

theorem isLed_shortest (tie : Binary64.Tie) {units : Nat}
    (representable : Binary64.Representable units) : IsLed (Binary64.shortest tie units) := by
  intro zero
  have reads := eq_of_beq (Binary64.shortest_readsAs representable tie)
  have nothing : Binary64.nearest 0 1 = 0 :=
    Binary64.nearest_representable Binary64.representable_zero
  have numerator : (Binary64.shortest tie units).numerator = 0 := by
    rw [Binary64.Decimal.numerator, zero, Nat.zero_mul, Nat.zero_mul]
  have value : (Binary64.shortest tie units).numerator * 1 =
      0 * (Binary64.shortest tie units).denominator := by
    rw [numerator, Nat.zero_mul, Nat.zero_mul]
  rw [Binary64.nearest_congr (Binary64.Decimal.denominator_pos _) Nat.one_pos value,
    nothing] at reads
  rw [← reads]
  rfl

theorem wholeIsPlain_positional {decimal : Binary64.Decimal} (led : IsLed decimal) :
    wholeIsPlain decimal.positional.1 = true := by
  by_cases zero : decimal.significand = 0
  · rw [led zero]
    decide
  · have start := Text.toDigits_ne_zero_cons zero
    -- The digits, the first of them, or the single zero that stands before a point.
    simp only [Binary64.Decimal.positional]
    split
    · exact wholeIsPlain_append Nat.toDigits_ne_nil start
    · split
      · rename_i places inside
        rw [← List.append_nil (List.take _ _)]
        refine wholeIsPlain_append ?_ fun others same => ?_
        · simp only [ne_eq, List.take_eq_nil_iff, not_or]
          exact ⟨by omega, Nat.toDigits_ne_nil⟩
        · have whole := List.take_append_drop
            ((Nat.toDigits 10 decimal.significand).length - (-decimal.exponent).toNat)
            (Nat.toDigits 10 decimal.significand)
          rw [same, List.cons_append] at whole
          exact start _ whole.symm
      · rfl

theorem plain_ofDecimal (negative : Bool) {decimal : Binary64.Decimal} (led : IsLed decimal) :
    (ofDecimal negative decimal).Plain := by
  have digit : ∀ {number : Nat} {character : Char}, character ∈ Nat.toDigits 10 number →
      character.isDigit = true := Text.isDigit_of_mem
  simp only [ofDecimal]
  split
  · refine ⟨decimal.positional_whole_ne_nil, ?_, wholeIsPlain_positional led, ?_, by simp, by simp⟩
    · exact fun _ member => Binary64.Decimal.isDigit_of_mem_positional (.inl member)
    · intro character member
      split at member
      · rw [List.mem_singleton.mp member]
        decide
      · exact Binary64.Decimal.isDigit_of_mem_positional (.inr member)
  · refine ⟨?_, fun _ member => digit (List.mem_of_mem_take member), ?_,
      fun _ member => digit (List.mem_of_mem_drop member), ?_, ?_⟩
    · simp [Nat.toDigits_ne_nil]
    · cases Nat.toDigits 10 decimal.significand with
      | nil => rfl
      | cons first rest =>
          rw [List.take_succ_cons, List.take_zero]
          unfold wholeIsPlain
          split <;> simp_all
    · intro part same
      cases same
      exact Nat.toDigits_ne_nil
    · intro part same
      cases same
      exact fun _ => digit

theorem plain_ofBinary64? {number : Binary64} {numeral : Numeral}
    (written : ofBinary64? number = some numeral) : numeral.Plain := by
  cases number with
  | finite negative magnitude =>
      cases written
      exact plain_ofDecimal negative (isLed_shortest .even magnitude.representable)
  | infinite negative => cases written
  | nan => cases written

end Decimals

end VBed.Json.Numeral
