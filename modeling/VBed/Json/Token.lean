import VBed.Json.Basic

/-!
The tokens of a JSON text. The text is read character by character; what has been read of an
unfinished token is kept until the token ends.
-/

namespace VBed.Json

inductive Token where
  | openArray
  | closeArray
  | openObject
  | closeObject
  | colon
  | comma
  | null
  | bool (value : Bool)
  | number (numeral : Numeral)
  | string (text : Option String)
deriving DecidableEq, Inhabited

/-- What is being read. The latest characters come first. -/
inductive Reading where
  | between
  | word (letters : List Char)
  | number (characters : List Char)
  | string (units : List Nat)
  | escape (units : List Nat)
  | hex (units : List Nat) (digits : List Char)
deriving Inhabited

namespace Token

def isSpace (character : Char) : Bool :=
  character == ' ' || character == '\t' || character == '\n' || character == '\r'

def isNumeric (character : Char) : Bool :=
  character.isDigit || character == '-' || character == '+' || character == '.' ||
    character == 'e' || character == 'E'

def punctuation? : Char → Option Token
  | '[' => some openArray
  | ']' => some closeArray
  | '{' => some openObject
  | '}' => some closeObject
  | ':' => some colon
  | ',' => some comma
  | _ => none

def word? (letters : List Char) : Option Token :=
  if letters = ['n', 'u', 'l', 'l'] then some null
  else if letters = ['t', 'r', 'u', 'e'] then some (bool true)
  else if letters = ['f', 'a', 'l', 's', 'e'] then some (bool false)
  else none

def isHighHalf (unit : Nat) : Bool :=
  0xD800 ≤ unit && unit < 0xDC00

def isLowHalf (unit : Nat) : Bool :=
  0xDC00 ≤ unit && unit < 0xE000

def joinHalves (high low : Nat) : Nat :=
  0x10000 + (high - 0xD800) * 0x400 + (low - 0xDC00)

/-- Adds a unit, which completes a character when it is a second half behind a first one. -/
def pushUnit (unit : Nat) : List Nat → List Nat
  | last :: rest =>
      if isHighHalf last && isLowHalf unit then joinHalves last unit :: rest
      else unit :: last :: rest
  | [] => [unit]

def unitChar? (unit : Nat) : Option Char :=
  if valid : unit.isValidChar then some (Char.ofNatAux unit valid) else none

def unitsText? (units : List Nat) : Option String :=
  (units.mapM unitChar?).map String.ofList

def shortEscape? : Char → Option Nat
  | '"' => some 0x22
  | '\\' => some 0x5C
  | '/' => some 0x2F
  | 'b' => some 0x08
  | 'f' => some 0x0C
  | 'n' => some 0x0A
  | 'r' => some 0x0D
  | 't' => some 0x09
  | _ => none

def hexDigit? (character : Char) : Option Nat :=
  let code := character.toNat
  if '0'.toNat ≤ code ∧ code ≤ '9'.toNat then some (code - '0'.toNat)
  else if 'a'.toNat ≤ code ∧ code ≤ 'f'.toNat then some (code - 'a'.toNat + 10)
  else if 'A'.toNat ≤ code ∧ code ≤ 'F'.toNat then some (code - 'A'.toNat + 10)
  else none

def hexValue? (digits : List Char) : Option Nat :=
  digits.foldlM (fun value digit => (hexDigit? digit).map (value * 16 + ·)) 0

def finish : Reading → Option (List Token)
  | .between => some []
  | .word letters => (word? letters.reverse).map ([·])
  | .number characters => (Numeral.ofChars? characters.reverse).map ([.number ·])
  | _ => none

def start (character : Char) : Option (Reading × List Token) :=
  if isSpace character then some (.between, [])
  else if character == '"' then some (.string [], [])
  else if isNumeric character then some (.number [character], [])
  else if character.isLower then some (.word [character], [])
  else (punctuation? character).map fun token => (.between, [token])

def restart (reading : Reading) (character : Char) : Option (Reading × List Token) := do
  let ended ← finish reading
  let (next, tokens) ← start character
  return (next, ended ++ tokens)

def readInString (units : List Nat) (character : Char) : Option (Reading × List Token) :=
  if character == '"' then some (.between, [.string (unitsText? units.reverse)])
  else if character == '\\' then some (.escape units, [])
  else if character.toNat < 0x20 then none
  else some (.string (pushUnit character.toNat units), [])

def readEscape (units : List Nat) (character : Char) : Option (Reading × List Token) :=
  if character == 'u' then some (.hex units [], [])
  else (shortEscape? character).map fun unit => (.string (pushUnit unit units), [])

def readHex (units : List Nat) (digits : List Char) (character : Char) :
    Option (Reading × List Token) :=
  let all := digits ++ [character]
  if all.length < 4 then some (.hex units all, [])
  else (hexValue? all).map fun unit => (.string (pushUnit unit units), [])

def read (reading : Reading) (character : Char) : Option (Reading × List Token) :=
  match reading with
  | .between => start character
  | .word letters =>
      if character.isLower then some (.word (character :: letters), [])
      else restart reading character
  | .number characters =>
      if isNumeric character then some (.number (character :: characters), [])
      else restart reading character
  | .string units => readInString units character
  | .escape units => readEscape units character
  | .hex units digits => readHex units digits character

end Token

end VBed.Json
