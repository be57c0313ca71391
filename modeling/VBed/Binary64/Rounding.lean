import VBed.Binary64.Basic

/-!
Rounding to binary64: an exact quotient goes to the nearest representable count of units, a tie
to the even significand. Each operation is its exact result, rounded once.
-/

namespace VBed.Binary64

/-- The whole number nearest to a quotient; a tie goes to the even one. -/
def nearestWhole (numerator denominator : Nat) : Nat :=
  let quotient := numerator / denominator
  let remainder := numerator % denominator
  if 2 * remainder < denominator then quotient
  else if denominator < 2 * remainder then quotient + 1
  else quotient + quotient % 2

def spacing (units : Nat) : Nat :=
  units.log2 - 52

def nearest (numerator denominator : Nat) : Nat :=
  let gap := Nat.pow 2 (spacing (numerator / denominator))
  nearestWhole numerator (denominator * gap) * gap

def ofUnits (negative : Bool) (units : Nat) : Binary64 :=
  if representable : Representable units then .finite negative ⟨units, representable⟩
  else .infinite negative

def round (negative : Bool) (numerator denominator : Nat) : Binary64 :=
  ofUnits negative (nearest numerator denominator)

def ofNat (number : Nat) : Binary64 :=
  round false (number * one) 1

/-- The difference of two numbers, rounded; equal numbers differ by zero with a plus sign, except
for minus zero less plus zero. -/
def sub : Binary64 → Binary64 → Binary64
  | .finite leftNegative left, .finite rightNegative right =>
      let difference := signed leftNegative left.units - signed rightNegative right.units
      if difference = 0 then .finite (leftNegative && !rightNegative) ⟨0, representable_zero⟩
      else round (difference < 0) difference.natAbs 1
  | .infinite leftNegative, .infinite rightNegative =>
      if leftNegative == rightNegative then .nan else .infinite leftNegative
  | .infinite negative, .finite _ _ => .infinite negative
  | .finite _ _, .infinite negative => .infinite (!negative)
  | _, _ => .nan

end VBed.Binary64
