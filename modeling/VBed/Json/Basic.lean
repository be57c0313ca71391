import VBed.Json.Numeral

/-!
JSON values as they are written: members keep their order and may repeat a key, numbers keep their
digits, and a string can name code units that are no text.
-/

namespace VBed

inductive Json where
  | null
  | bool (value : Bool)
  | number (numeral : Json.Numeral)
  /-- A string; without a text it has an escape that names half a character. -/
  | string (text : Option String)
  | array (items : List Json)
  | object (members : List (Option String × Json))
deriving Inhabited

namespace Json

abbrev Member := Option String × Json

def text (text : String) : Json :=
  .string (some text)

def int (number : Int) : Json :=
  .number (.ofInt number)

def naturals (numbers : List Nat) : Json :=
  .array (numbers.map fun number => int (number : Nat))

def record (members : List (String × Json)) : Json :=
  .object (members.map fun (key, value) => (some key, value))

def orNull {α : Type} (encode : α → Json) : Option α → Json
  | some value => encode value
  | none => .null

end Json

end VBed
