import VBed.Document.Fields
import VBed.Machine.NeedleSet

/-!
Needles, beds, directions, carriers, sheets and scopes as JSON.
-/

namespace VBed

namespace Needle

def toJson (needle : Needle) : Json :=
  .text needle.text

def ofJson? (json : Json) : Option Needle :=
  json.text?.bind ofText?

end Needle

namespace Side

def name : Side → String
  | front => "front"
  | back => "back"

def toJson (side : Side) : Json :=
  .text side.name

def ofJson? : Json → Option Side :=
  Json.choice? [("front", front), ("back", back)]

end Side

namespace Direction

def toJson (direction : Direction) : Json :=
  .text direction.text

def choices : List (String × Direction) :=
  [("+", leftToRight), ("-", rightToLeft)]

def ofJson? : Json → Option Direction :=
  Json.choice? choices

end Direction

namespace CarrierId

def toJson (id : CarrierId) : Json :=
  .int id.number

def ofJson? (json : Json) : Option CarrierId :=
  json.word?.map (⟨·⟩)

end CarrierId

namespace CarrierSet

def toJson (carriers : CarrierSet) : Json :=
  .array (carriers.map CarrierId.toJson)

def ofJson? : Json → Option CarrierSet :=
  Json.list? CarrierId.ofJson?

end CarrierSet

namespace SheetId

def toJson (id : SheetId) : Json :=
  .record [("sheet", .int id.sheet), ("gauge", .int id.gauge)]

/-- A sheet and a gauge; whether the sheet exists is not asked. -/
def ofJson? (json : Json) : Option SheetId := do
  let fields ← json.fields? ["sheet", "gauge"]
  return ⟨← fields.required? "sheet" Json.word?, ← fields.required? "gauge" Json.word?⟩

end SheetId

namespace Scope

def toJson : Scope → Json
  | all => .text "all"
  | current => .text "current"
  | sheet number gauge => .tagged "sheet" (SheetId.toJson ⟨number, gauge⟩)

def ofJson? (json : Json) : Option Scope := do
  match ← json.variant? with
  | ("sheet", some content) => (SheetId.ofJson? content).map fun id => sheet id.sheet id.gauge
  | _ => Json.choice? [("all", all), ("current", current)] json

end Scope

end VBed
