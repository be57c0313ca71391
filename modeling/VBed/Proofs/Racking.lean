import Mathlib.Algebra.Group.Nat.Defs
import VBed.Knitout
import VBed.Machine.Work
import VBed.Proofs.Runs

/-!
Racking to zero. Positions are machine words, which round to finite numbers, so at racking zero
every position faces the same position of the other bed.
-/

namespace VBed

namespace Binary64

theorem power_eq (exponent : Nat) : Nat.pow 2 exponent = 2 ^ exponent := rfl

theorem one_eq : one = 2 ^ unitExponent := by
  unfold one
  exact power_eq unitExponent

theorem nearestWhole_le (numerator denominator : Nat) :
    nearestWhole numerator denominator ≤ numerator / denominator + 1 := by
  simp only [nearestWhole]
  split
  · omega
  · split <;> omega

/-- A count of at most fifty-three significant bits, or the power of two behind them, stays
representable when it is shifted. -/
theorem shifted_representable {significand shift : Nat} (small : significand ≤ 2 ^ 53)
    (below : significand * 2 ^ shift < beyond) : Representable (significand * 2 ^ shift) := by
  refine ⟨below, Nat.mod_eq_zero_of_dvd ?_⟩
  let units := significand * 2 ^ shift
  change 2 ^ (units.log2 - 52) ∣ units
  by_cases fits : units.log2 - 52 ≤ shift
  · exact Nat.dvd_trans (Nat.pow_dvd_pow 2 fits) (Nat.dvd_mul_left _ _)
  · have positive : units ≠ 0 := by
      intro zero
      rw [zero] at fits
      simp at fits
    have large : 2 ^ 53 * 2 ^ shift ≤ units := by
      rw [← Nat.pow_add]
      exact Nat.le_trans (Nat.pow_le_pow_right (by decide) (by omega)) (Nat.log2_self_le positive)
    have whole : significand = 2 ^ 53 :=
      Nat.le_antisymm small (Nat.le_of_mul_le_mul_right large (Nat.two_pow_pos shift))
    have power : units = 2 ^ (53 + shift) := by
      rw [Nat.pow_add, ← whole]
    rw [power, Nat.log2_two_pow]
    exact Nat.pow_dvd_pow 2 (by omega)

theorem nearest_significand_le (units : Nat) :
    nearestWhole units (1 * 2 ^ spacing (units / 1)) ≤ 2 ^ 53 := by
  rw [Nat.one_mul, Nat.div_one]
  have rounded := nearestWhole_le units (2 ^ spacing units)
  have quotient : units / 2 ^ spacing units < 2 ^ 53 := by
    rw [Nat.div_lt_iff_lt_mul (Nat.two_pow_pos _), ← Nat.pow_add]
    refine Nat.lt_of_lt_of_le Nat.lt_log2_self (Nat.pow_le_pow_right (by decide) ?_)
    simp only [spacing]
    omega
  omega

/-- A machine word rounds to a finite number. -/
theorem ofNat_finite {number : Nat} (word : number < Text.wordCount) :
    ∃ magnitude, ofNat number = .finite false magnitude := by
  let units := number * one
  have significand := nearest_significand_le units
  have spaced : spacing units ≤ 64 + unitExponent := by
    have upper : units < 2 ^ (64 + unitExponent) := by
      have words : Text.wordCount = 2 ^ 64 := rfl
      rw [words] at word
      rw [Nat.pow_add, ← one_eq]
      exact Nat.mul_lt_mul_of_pos_right word one_pos
    by_cases zero : units = 0
    · simp [zero, spacing]
    · have exponent := (Nat.log2_lt zero).mpr upper
      simp only [spacing]
      omega
  have below : nearest units 1 < beyond := by
    rw [nearest, Nat.div_one, power_eq, beyond, power_eq, one_eq]
    rw [Nat.div_one] at significand
    refine Nat.lt_of_le_of_lt (Nat.mul_le_mul significand
      (Nat.pow_le_pow_right (by decide) spaced)) ?_
    rw [← Nat.pow_add, ← Nat.pow_add]
    exact Nat.pow_lt_pow_right (by decide) (by simp only [beyondExponent]; omega)
  have representable : Representable (nearest units 1) := shifted_representable significand below
  refine ⟨⟨nearest units 1, representable⟩, ?_⟩
  rw [ofNat, round, ofUnits, dif_pos representable]

end Binary64

namespace Machine

theorem rackingBetween_self {position : Nat} (word : position < Text.wordCount) :
    rackingBetween position position = .zero := by
  obtain ⟨magnitude, finite⟩ := Binary64.ofNat_finite word
  rw [rackingBetween, finite]
  simp [Binary64.sub, Binary64.zero]

variable {machine : Machine}

theorem checkRacking_zero (valid : machine.spec.check = .ok ()) :
    machine.checkRacking .zero = .ok () := by
  have notNegative : machine.spec.maxRack.less .zero = false := by
    simp only [Spec.check, throw_bind, refusal_eq_ok] at valid
    simp only [Bool.or_eq_true, not_or, Bool.not_eq_true] at valid
    exact valid.2.2.1.2
  simp only [checkRacking, refusal_eq_ok]
  refine ⟨?_, rfl⟩
  simp only [Bool.or_eq_true, not_or, Bool.not_eq_true]
  exact ⟨rfl, notNegative⟩

def rackLines (machine : Machine) (racking : Binary64) : List Line :=
  if !machine.racking.equal racking then [.plain (.rack racking)] else []

theorem setRacking_done {racking : Binary64} (checked : machine.checkRacking racking = .ok ()) :
    setRacking racking machine =
      .ok (!machine.racking.equal racking) { machine with racking := racking } := by
  rw [setRacking, run_bind_ok (ask_ok checked)]
  rfl

theorem checkFacing_straight {start target : Needle} (straight : machine.racking = .zero)
    (same : target.position = start.position) (word : start.position < Text.wordCount) :
    machine.checkFacing start target = .ok () := by
  have facing : machine.faces start.position start.position = true := by
    rw [faces, rackingBetween_self word, straight]
    rfl
  rw [checkFacing]
  cases start.side <;> simp [same, facing]

end Machine

end VBed
