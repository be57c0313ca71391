import VBed.Binary64.Shortest
import VBed.Text.Decimal

/-!
Binary64 numbers as text. The plain text is always positional: the shortest digits, a point only
where digits follow it, and a minus sign also for the negative zero.
-/

namespace VBed.Binary64

def Decimal.positional (decimal : Decimal) : List Char × List Char :=
  let digits := Nat.toDigits 10 decimal.significand
  let places := (-decimal.exponent).toNat
  if places = 0 then (digits ++ List.replicate decimal.exponent.toNat '0', [])
  else if places < digits.length then
    (digits.take (digits.length - places), digits.drop (digits.length - places))
  else (['0'], List.replicate (places - digits.length) '0' ++ digits)

def signText (negative : Bool) : List Char :=
  if negative then ['-'] else []

/-- The plain text of a number; of two equally near decimals the greater one is written. -/
def plainText : Binary64 → String
  | .finite negative magnitude =>
      let (whole, fraction) := (shortest .up magnitude.units).positional
      String.ofList (signText negative ++ whole ++
        if fraction.isEmpty then [] else '.' :: fraction)
  | .infinite negative => String.ofList (signText negative ++ ['i', 'n', 'f'])
  | .nan => "NaN"

end VBed.Binary64
