import VBed.Text.Decimal

/-!
Lists of numbers as text.
-/

namespace VBed.Text

def bracketed (numbers : List Nat) : String :=
  "[" ++ ", ".intercalate (numbers.map decimal) ++ "]"

end VBed.Text
