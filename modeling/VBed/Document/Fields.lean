import VBed.Fault
import VBed.Json.Binary64
import VBed.Json.Reader
import VBed.Json.Writer

/-!
Documents are values written in JSON. Numbers are read within the range of their type, structures
from their fields, and choices from the name of a variant.
-/

namespace VBed

def Json.readText {α : Type} (read? : Json → Option α) (text : String) : Except Fault α :=
  match (Json.ofText? text).bind read? with
  | some value => .ok value
  | none => .error .malformedDocument

namespace Json

def natural? (limit : Nat) : Json → Option Nat
  | .number numeral => numeral.natural?.filter (· < limit)
  | _ => none

def word? : Json → Option Nat :=
  natural? Text.wordCount

def word32? : Json → Option Nat :=
  natural? (Nat.pow 2 32)

def signedWord? : Json → Option Int
  | .number numeral =>
      numeral.integer?.filter fun number => -Nat.pow 2 63 ≤ number && number < Nat.pow 2 63
  | _ => none

def binary64? : Json → Option Binary64
  | .number numeral => numeral.binary64?
  | _ => none

def binary64 (number : Binary64) : Json :=
  orNull .number (Numeral.ofBinary64? number)

def bool? : Json → Option Bool
  | .bool value => some value
  | _ => none

def text? : Json → Option String
  | .string text => text
  | _ => none

def list? {α : Type} (read? : Json → Option α) : Json → Option (List α)
  | .array items => items.mapM read?
  | _ => none

def nullable? {α : Type} (read? : Json → Option α) : Json → Option (Option α)
  | .null => some none
  | json => (read? json).map some

/-- The text of a key. Numbers and truth values are keys by the text that they have; nothing that
has parts is one. -/
def key? : Json → Option (Option String)
  | .string text => some text
  | .number numeral => some (some (String.ofList numeral.chars))
  | .bool value => some (some (if value then "true" else "false"))
  | _ => none

def member? (entry : Json × Json) : Option Member :=
  (key? entry.1).map (·, entry.2)

def ofEntries (entries : List (Json × Json)) : Except Fault Json :=
  match entries.mapM member? with
  | some members => .ok (.object members)
  | none => .error .malformedDocument

/-- The entries of a map. A key is read from the string that it is. -/
def entries? {α β : Type} (key? : Json → Option α) (value? : Json → Option β) :
    Json → Option (List (α × β))
  | .object members => members.mapM fun (key, value) => do
      return (← key? (.string key), ← value? value)
  | _ => none

structure Fields where
  byName : Bool
  values : List (String × Json)

def members? (members : List Member) : Option (List (String × Json)) :=
  members.mapM fun (key, value) => key.map (·, value)

/-- Reads the fields with given names. Other members of an object do not count, but no field may be
given twice; an array has no more items than there are fields. -/
def fields? (names : List String) : Json → Option Fields
  | .object members => do
      let known := (← members? members).filter fun (key, _) => names.contains key
      guard (known.map Prod.fst).Nodup
      return ⟨true, known⟩
  | .array items => do
      guard (items.length ≤ names.length)
      return ⟨false, names.zip items⟩
  | _ => none

namespace Fields

def required? {α : Type} (fields : Fields) (name : String) (read? : Json → Option α) : Option α :=
  (fields.values.lookup name).bind read?

def defaulted? {α : Type} (fields : Fields) (name : String) (read? : Json → Option α)
    (value : α) : Option α :=
  match fields.values.lookup name with
  | some json => read? json
  | none => some value

/-- A field that may be null; among fields by name it may be left out. -/
def optional? {α : Type} (fields : Fields) (name : String) (read? : Json → Option α) :
    Option (Option α) :=
  match fields.values.lookup name with
  | some json => nullable? read? json
  | none => if fields.byName then some none else none

end Fields

def variant? : Json → Option (String × Option Json)
  | .string (some name) => some (name, none)
  | .object [(some name, content)] => some (name, some content)
  | _ => none

def tagged (name : String) (content : Json) : Json :=
  record [(name, content)]

/-- The value among a few that has the name of a variant that holds nothing. -/
def choice? {α : Type} (choices : List (String × α)) (json : Json) : Option α := do
  let (name, content) ← variant? json
  match content with
  | none | some .null => choices.lookup name
  | _ => none

end Json

end VBed
