import VBed.Document.Needle
import VBed.Knitout

/-!
Knitout lines and their instructions as JSON.
-/

namespace VBed

namespace Instruction

def carriersJson (name : String) (carriers : CarrierSet) : Json :=
  .tagged name (.record [("carriers", CarrierSet.toJson carriers)])

def makingJson (name : String) (direction : Direction) (needle : Needle) (carriers : CarrierSet) :
    Json :=
  .tagged name (.record [("direction", direction.toJson), ("needle", needle.toJson),
    ("carriers", CarrierSet.toJson carriers)])

def toJson : Instruction → Json
  | knit direction needle carriers => makingJson "Knit" direction needle carriers
  | tuck direction needle carriers => makingJson "Tuck" direction needle carriers
  | split direction start target carriers =>
      .tagged "Split" (.record [("direction", direction.toJson), ("start", start.toJson),
        ("target", target.toJson), ("carriers", CarrierSet.toJson carriers)])
  | drop needle => .tagged "Drop" (.record [("needle", needle.toJson)])
  | xfer start target =>
      .tagged "Xfer" (.record [("start", start.toJson), ("target", target.toJson)])
  | rack racking => .tagged "Rack" (.record [("racking", .binary64 racking)])
  | bringIn carriers => carriersJson "In" carriers
  | inhook carriers => carriersJson "Inhook" carriers
  | releasehook carriers => carriersJson "Releasehook" carriers
  | out carriers => carriersJson "Out" carriers
  | outhook carriers => carriersJson "Outhook" carriers

def carriers? (content : Json) (make : CarrierSet → Instruction) : Option Instruction := do
  let fields ← content.fields? ["carriers"]
  return make (← fields.required? "carriers" CarrierSet.ofJson?)

def making? (content : Json) (make : Direction → Needle → CarrierSet → Instruction) :
    Option Instruction := do
  let fields ← content.fields? ["direction", "needle", "carriers"]
  return make (← fields.required? "direction" Direction.ofJson?)
    (← fields.required? "needle" Needle.ofJson?)
    (← fields.required? "carriers" CarrierSet.ofJson?)

def split? (content : Json) : Option Instruction := do
  let fields ← content.fields? ["direction", "start", "target", "carriers"]
  return split (← fields.required? "direction" Direction.ofJson?)
    (← fields.required? "start" Needle.ofJson?)
    (← fields.required? "target" Needle.ofJson?)
    (← fields.required? "carriers" CarrierSet.ofJson?)

def drop? (content : Json) : Option Instruction := do
  let fields ← content.fields? ["needle"]
  return drop (← fields.required? "needle" Needle.ofJson?)

def xfer? (content : Json) : Option Instruction := do
  let fields ← content.fields? ["start", "target"]
  return xfer (← fields.required? "start" Needle.ofJson?)
    (← fields.required? "target" Needle.ofJson?)

def rack? (content : Json) : Option Instruction := do
  let fields ← content.fields? ["racking"]
  return rack (← fields.required? "racking" Json.binary64?)

def ofJson? (json : Json) : Option Instruction := do
  match ← json.variant? with
  | ("Knit", some content) => making? content knit
  | ("Tuck", some content) => making? content tuck
  | ("Split", some content) => split? content
  | ("Drop", some content) => drop? content
  | ("Xfer", some content) => xfer? content
  | ("Rack", some content) => rack? content
  | ("In", some content) => carriers? content bringIn
  | ("Inhook", some content) => carriers? content inhook
  | ("Releasehook", some content) => carriers? content releasehook
  | ("Out", some content) => carriers? content out
  | ("Outhook", some content) => carriers? content outhook
  | _ => none

end Instruction

namespace Line

def toJson : Line → Json
  | version number => .tagged "Version" (.int number)
  | comment text => .tagged "Comment" (.text text)
  | instruction content note =>
      .tagged "Instruction" (.record [("instruction", content.toJson),
        ("comment", .orNull .text note)])

def instructionLine? (json : Json) : Option Line := do
  let fields ← json.fields? ["instruction", "comment"]
  return instruction (← fields.required? "instruction" Instruction.ofJson?)
    (← fields.optional? "comment" Json.text?)

def ofJson? (json : Json) : Option Line := do
  match ← json.variant? with
  | ("Version", some content) => content.word32?.map version
  | ("Comment", some content) => content.text?.map comment
  | ("Instruction", some content) => instructionLine? content
  | _ => none

end Line

end VBed
