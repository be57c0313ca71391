import VBed.Text.Decimal

/-!
Numerals of JSON: a sign, whole digits without a leading zero, and optionally a fraction and an
exponent.
-/

namespace VBed.Json

structure Numeral where
  negative : Bool
  whole : List Char
  fraction : List Char
  exponent : Option (Bool × List Char)
deriving DecidableEq, Repr, Inhabited

namespace Numeral

def ofInt (number : Int) : Numeral :=
  ⟨number < 0, Nat.toDigits 10 number.natAbs, [], none⟩

def signChars (negative : Bool) : List Char :=
  if negative then ['-'] else []

def fractionChars (digits : List Char) : List Char :=
  if digits.isEmpty then [] else '.' :: digits

def exponentChars : Option (Bool × List Char) → List Char
  | none => []
  | some (negative, digits) => 'e' :: (if negative then '-' else '+') :: digits

def chars (numeral : Numeral) : List Char :=
  signChars numeral.negative ++ numeral.whole ++ fractionChars numeral.fraction ++
    exponentChars numeral.exponent

def digits (text : List Char) : List Char × List Char :=
  text.span Char.isDigit

def someDigits? (text : List Char) : Option (List Char × List Char) :=
  if (digits text).1.isEmpty then none else some (digits text)

def wholeIsPlain : List Char → Bool
  | '0' :: rest => rest.isEmpty
  | _ => true

def fraction? : List Char → Option (List Char × List Char)
  | '.' :: rest => someDigits? rest
  | text => some ([], text)

def exponentSign : List Char → Bool × List Char
  | '-' :: rest => (true, rest)
  | '+' :: rest => (false, rest)
  | text => (false, text)

def exponent? : List Char → Option (Option (Bool × List Char))
  | [] => some none
  | mark :: text =>
      if mark = 'e' ∨ mark = 'E' then
        let (negative, rest) := exponentSign text
        if !rest.isEmpty && rest.all Char.isDigit then some (some (negative, rest)) else none
      else none

def unsigned? (negative : Bool) (text : List Char) : Option Numeral := do
  let (whole, afterWhole) ← someDigits? text
  guard (wholeIsPlain whole)
  let (fraction, afterFraction) ← fraction? afterWhole
  let exponent ← exponent? afterFraction
  return ⟨negative, whole, fraction, exponent⟩

def ofChars? : List Char → Option Numeral
  | '-' :: text => unsigned? true text
  | text => unsigned? false text

def wholeNumber? (numeral : Numeral) : Option Nat :=
  if numeral.fraction.isEmpty && numeral.exponent.isNone then
    some (Nat.ofDigitChars 10 numeral.whole 0)
  else none

def natural? (numeral : Numeral) : Option Nat :=
  if numeral.negative then none else numeral.wholeNumber?

/-- The integer of a numeral; there is no negative zero among integers. -/
def integer? (numeral : Numeral) : Option Int := do
  let number ← numeral.wholeNumber?
  if numeral.negative then
    guard (number ≠ 0)
    return -number
  return number

end Numeral

end VBed.Json
