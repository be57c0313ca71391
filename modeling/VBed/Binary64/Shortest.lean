import VBed.Binary64.Rounding

/-!
The shortest decimal of a magnitude: of all decimals that round to it, one with the fewest
significant digits, and of those the one nearest to it.
-/

namespace VBed.Binary64

structure Decimal where
  significand : Nat
  exponent : Int
deriving DecidableEq, Repr

inductive Tie where
  | up
  | even
deriving DecidableEq

def Decimal.numerator (decimal : Decimal) : Nat :=
  decimal.significand * Nat.pow 10 decimal.exponent.toNat * one

def Decimal.denominator (decimal : Decimal) : Nat :=
  Nat.pow 10 (-decimal.exponent).toNat

def Decimal.readsAs (decimal : Decimal) (units : Nat) : Bool :=
  nearest decimal.numerator decimal.denominator == units

def Decimal.trimZeros (decimal : Decimal) : Nat → Decimal
  | 0 => decimal
  | fuel + 1 =>
      if decimal.significand ≠ 0 ∧ decimal.significand % 10 = 0 then
        Decimal.trimZeros ⟨decimal.significand / 10, decimal.exponent + 1⟩ fuel
      else decimal

def magnitudeExponent (units : Nat) : Int :=
  if one ≤ units then (Nat.toDigits 10 (units / one)).length
  else
    match (List.range 324).find? fun places => one ≤ units * Nat.pow 10 (places + 1) with
    | some places => -places
    | none => -324

def neighbours (tie : Tie) (units : Nat) (exponent : Int) : List Decimal :=
  let gap : Decimal := ⟨1, exponent⟩
  let scaled := units * gap.denominator
  let lower := scaled / gap.numerator
  let twiceRest := 2 * (scaled % gap.numerator)
  let below : Decimal := ⟨lower, exponent⟩
  let above : Decimal := ⟨lower + 1, exponent⟩
  if twiceRest < gap.numerator then [below, above]
  else if gap.numerator < twiceRest then [above, below]
  else match tie with
    | .up => [above, below]
    | .even => if lower % 2 = 0 then [below, above] else [above, below]

def exactDecimal (units : Nat) : Decimal :=
  ⟨units * Nat.pow 5 unitExponent, -unitExponent⟩

def shortest (tie : Tie) (units : Nat) : Decimal :=
  if units = 0 then ⟨0, 0⟩
  else
    let top := magnitudeExponent units
    let found := (List.range 17).findSome? fun (count : Nat) =>
      (neighbours tie units (top - (count + 1))).find? (·.readsAs units)
    (found.getD (exactDecimal units)).trimZeros 1100

end VBed.Binary64
