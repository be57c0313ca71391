import VBed.Json.Token

/-!
Reading a JSON text: each token that is completed goes on building the value. The arrays and
objects around the place that is being read are kept on a stack, the innermost first.
-/

namespace VBed.Json

/-- An array or object that waits for a value. The latest items and members come first. -/
inductive Frame where
  | array (before : List Json)
  | object (before : List Member) (key : Option String)
deriving Inhabited

inductive Stage where
  | value
  | key (before : List Member)
  | colon (before : List Member) (key : Option String)
  | done (value : Json)
deriving Inhabited

structure Assembly where
  frames : List Frame
  stage : Stage
deriving Inhabited

namespace Assembly

def empty : Assembly := ⟨[], .value⟩

def takeValue (frames : List Frame) : Token → Option Assembly
  | .openArray => some ⟨.array [] :: frames, .value⟩
  | .openObject => some ⟨frames, .key []⟩
  | .null => some ⟨frames, .done .null⟩
  | .bool value => some ⟨frames, .done (.bool value)⟩
  | .number numeral => some ⟨frames, .done (.number numeral)⟩
  | .string text => some ⟨frames, .done (.string text)⟩
  | .closeArray =>
      match frames with
      | .array [] :: rest => some ⟨rest, .done (.array [])⟩
      | _ => none
  | _ => none

def takeKey (frames : List Frame) (before : List Member) : Token → Option Assembly
  | .string key => some ⟨frames, .colon before key⟩
  | .closeObject => if before.isEmpty then some ⟨frames, .done (.object [])⟩ else none
  | _ => none

def takeAfter (value : Json) : List Frame → Token → Option Assembly
  | .array before :: rest, .comma => some ⟨.array (value :: before) :: rest, .value⟩
  | .array before :: rest, .closeArray => some ⟨rest, .done (.array (value :: before).reverse)⟩
  | .object before key :: rest, .comma => some ⟨rest, .key ((key, value) :: before)⟩
  | .object before key :: rest, .closeObject =>
      some ⟨rest, .done (.object ((key, value) :: before).reverse)⟩
  | _, _ => none

def take (assembly : Assembly) (token : Token) : Option Assembly :=
  match assembly.stage with
  | .value => takeValue assembly.frames token
  | .key before => takeKey assembly.frames before token
  | .colon before key =>
      if token = .colon then some ⟨.object before key :: assembly.frames, .value⟩ else none
  | .done value => takeAfter value assembly.frames token

def value? (assembly : Assembly) : Option Json :=
  match assembly.frames, assembly.stage with
  | [], .done value => some value
  | _, _ => none

end Assembly

structure Progress where
  reading : Reading
  assembly : Assembly
deriving Inhabited

namespace Progress

def empty : Progress := ⟨.between, .empty⟩

def read (progress : Progress) (character : Char) : Option Progress := do
  let (next, tokens) ← Token.read progress.reading character
  return ⟨next, ← tokens.foldlM Assembly.take progress.assembly⟩

def finish (progress : Progress) : Option Json := do
  let tokens ← Token.finish progress.reading
  (← tokens.foldlM Assembly.take progress.assembly).value?

end Progress

def ofText? (text : String) : Option Json := do
  (← text.toList.foldlM Progress.read .empty).finish

end VBed.Json
