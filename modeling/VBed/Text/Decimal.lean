/-!
Whole numbers in decimal: how they are written, and the notation of a machine word, which is read
with an optional plus sign, ASCII digits only, and a value below two to the sixty-fourth.
-/

namespace VBed.Text

abbrev wordCount : Nat := Nat.pow 2 64

def decimal (number : Nat) : String :=
  String.ofList (Nat.toDigits 10 number)

def signedDecimal (number : Int) : String :=
  if number < 0 then "-" ++ decimal number.natAbs else decimal number.natAbs

def natural? (text : List Char) : Option Nat :=
  if text.isEmpty then none
  else if text.all Char.isDigit then some (Nat.ofDigitChars 10 text 0) else none

def word? (text : List Char) : Option Nat :=
  let digits := match text with
    | '+' :: rest => rest
    | _ => text
  (natural? digits).filter (· < wordCount)

def signedWord (word : Int) : Int :=
  word.bmod wordCount

end VBed.Text
