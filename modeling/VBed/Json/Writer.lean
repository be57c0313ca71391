import VBed.Json.Basic

/-!
Writing JSON without any space. In strings only quotation marks, backslashes and control
characters are escaped.
-/

namespace VBed.Json

def hexChars (unit : Nat) : List Char :=
  [unit / 0x1000 % 16, unit / 0x100 % 16, unit / 0x10 % 16, unit % 16].map Nat.digitChar

def escape (character : Char) : List Char :=
  match character with
  | '"' => ['\\', '"']
  | '\\' => ['\\', '\\']
  | '\n' => ['\\', 'n']
  | '\r' => ['\\', 'r']
  | '\t' => ['\\', 't']
  | other =>
      if other.toNat = 0x08 then ['\\', 'b']
      else if other.toNat = 0x0C then ['\\', 'f']
      else if other.toNat < 0x20 then '\\' :: 'u' :: hexChars other.toNat
      else [other]

/-- The characters of a string; half a character stands for one that is no text. -/
def stringChars : Option String → List Char
  | some text => '"' :: text.toList.flatMap escape ++ ['"']
  | none => '"' :: '\\' :: 'u' :: hexChars 0xD800 ++ ['"']

mutual

def chars : Json → List Char
  | null => ['n', 'u', 'l', 'l']
  | bool true => ['t', 'r', 'u', 'e']
  | bool false => ['f', 'a', 'l', 's', 'e']
  | number numeral => numeral.chars
  | string text => stringChars text
  | array items => '[' :: itemsChars items ++ [']']
  | object members => '{' :: membersChars members ++ ['}']

def itemsChars : List Json → List Char
  | [] => []
  | [item] => item.chars
  | item :: rest => item.chars ++ ',' :: itemsChars rest

def membersChars : List Member → List Char
  | [] => []
  | [(key, value)] => stringChars key ++ ':' :: value.chars
  | (key, value) :: rest => stringChars key ++ ':' :: value.chars ++ ',' :: membersChars rest

end

def render (json : Json) : String :=
  String.ofList json.chars

end VBed.Json
