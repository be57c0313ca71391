import VBed.Binary64.Shortest
import VBed.Binary64.Text
import VBed.Json.Numeral

/-!
Binary64 numbers as numerals. A numeral is read quickly rather than exactly: a significand of one
machine word is multiplied or divided by one rounded power of ten. It is written with the fewest
digits that stand for the number.
-/

namespace VBed.Json.Numeral

def maxPower : Nat := 308

def powerUnits (exponent : Nat) : Nat :=
  Binary64.nearest (Nat.pow 10 exponent * Binary64.one) 1

def absorb (significand : Nat) : List Char → Nat × List Char
  | [] => (significand, [])
  | digit :: rest =>
      let next := significand * 10 + (digit.toNat - '0'.toNat)
      if next < Text.wordCount then absorb next rest else (significand, digit :: rest)

/-- A significand, and the power of ten that the digits of the numeral give it. Whole digits that
are left over still count as places, digits of the fraction that are left over do not. -/
def significand (numeral : Numeral) : Nat × Int :=
  let (whole, wholeLeft) := absorb 0 numeral.whole
  let (all, fractionLeft) := absorb whole numeral.fraction
  (all, (wholeLeft.length : Int) - (numeral.fraction.length - fractionLeft.length))

def raise? (units exponent : Nat) : Option Nat :=
  if exponent ≤ maxPower then
    let product := Binary64.nearest (units * powerUnits exponent) Binary64.one
    if product < Binary64.beyond then some product else none
  else if units = 0 then some 0 else none

def lower (units exponent : Nat) : Nat :=
  if exponent ≤ maxPower then Binary64.nearest (units * Binary64.one) (powerUnits exponent)
  else if units = 0 then 0
  else
    lower (Binary64.nearest (units * Binary64.one) (powerUnits maxPower)) (exponent - maxPower)
termination_by exponent
decreasing_by simp_all [maxPower]; omega

def scale? (units : Nat) (exponent : Int) : Option Nat :=
  if exponent < 0 then some (lower units exponent.natAbs) else raise? units exponent.natAbs

def clampExponent (exponent : Int) : Int :=
  max (-Nat.pow 2 31) (min (Nat.pow 2 31 - 1) exponent)

def units? (numeral : Numeral) : Option Nat :=
  let (significand, places) := numeral.significand
  let start := Binary64.nearest (significand * Binary64.one) 1
  match numeral.exponent with
  | none => scale? start places
  | some (negative, digits) =>
      let exponent : Int := Nat.ofDigitChars 10 digits 0
      if exponent < Nat.pow 2 31 then
        scale? start (clampExponent (places + if negative then -exponent else exponent))
      else if significand = 0 ∨ negative then some 0 else none

def binary64? (numeral : Numeral) : Option Binary64 := do
  let number := Binary64.ofUnits numeral.negative (← numeral.units?)
  if number.isFinite then return number else none

/-- The numeral of a decimal: positional when the first digit stands between the fifth place
behind the point and the sixteenth before it, otherwise with one digit before the point. -/
def ofDecimal (negative : Bool) (decimal : Binary64.Decimal) : Numeral :=
  let digits := Nat.toDigits 10 decimal.significand
  let leading := decimal.exponent + digits.length - 1
  if -5 ≤ leading ∧ leading ≤ 15 then
    let (whole, fraction) := decimal.positional
    ⟨negative, whole, if fraction.isEmpty then ['0'] else fraction, none⟩
  else
    ⟨negative, digits.take 1, digits.drop 1, some (leading < 0, Nat.toDigits 10 leading.natAbs)⟩

/-- The numeral of a finite number; of two equally near decimals the even one is written. -/
def ofBinary64? : Binary64 → Option Numeral
  | .finite negative magnitude =>
      some (ofDecimal negative (Binary64.shortest .even magnitude.units))
  | _ => none

end VBed.Json.Numeral
