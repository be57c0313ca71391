import VBed.Document.Needle
import VBed.Program

/-!
Machines and programs as JSON. An operation is an object whose member `op` names it, or an array
that starts with its name. Everything inside an operation must be a proper value, fields that are
not its own included, and its nesting is bounded.
-/

namespace VBed

namespace Spec

def toJson (spec : Spec) : Json :=
  .record [("needle_count", .int spec.needleCount), ("max_rack", .binary64 spec.maxRack),
    ("carrier_count", .int spec.carrierCount), ("hook_size", .int spec.hookSize)]

def ofJson? (json : Json) : Option Spec := do
  let fields ← json.fields? ["needle_count", "max_rack", "carrier_count", "hook_size"]
  return {
    needleCount := ← fields.defaulted? "needle_count" Json.word? standard.needleCount
    maxRack := ← fields.defaulted? "max_rack" Json.binary64? standard.maxRack
    carrierCount := ← fields.defaulted? "carrier_count" Json.word? standard.carrierCount
    hookSize := ← fields.defaulted? "hook_size" Json.word? standard.hookSize }

def ofText (text : String) : Except Fault Spec := do
  let spec ← Json.readText ofJson? text
  spec.check
  return spec

end Spec

namespace Json

def maxNesting : Nat := 127

mutual

/-- Strings are texts, numbers are not too large, and no more than `depth` arrays and objects stand
one in another. -/
def isProper (depth : Nat) : Json → Bool
  | null | bool _ => true
  | number numeral => numeral.binary64?.isSome
  | string text => text.isSome
  | array items => depth != 0 && areProper (depth - 1) items
  | object members => depth != 0 && membersAreProper (depth - 1) members

def areProper (depth : Nat) : List Json → Bool
  | [] => true
  | item :: rest => item.isProper depth && areProper depth rest

def membersAreProper (depth : Nat) : List Member → Bool
  | [] => true
  | (key, value) :: rest => key.isSome && value.isProper depth && membersAreProper depth rest

end

end Json

namespace Operation

def parts : Operation → String × List (String × Json)
  | bringIn carrier => ("in", [("carrier", carrier.toJson)])
  | inhook carrier => ("inhook", [("carrier", carrier.toJson)])
  | releasehook carrier => ("releasehook", [("carrier", carrier.toJson)])
  | out carrier => ("out", [("carrier", carrier.toJson)])
  | outhook carrier => ("outhook", [("carrier", carrier.toJson)])
  | knit needle carriers direction =>
      ("knit", [("needle", needle.toJson), ("carriers", CarrierSet.toJson carriers),
        ("direction", .orNull Direction.toJson direction)])
  | tuck needle carriers direction =>
      ("tuck", [("needle", needle.toJson), ("carriers", CarrierSet.toJson carriers),
        ("direction", .orNull Direction.toJson direction)])
  | split start target carriers direction =>
      ("split", [("start", start.toJson), ("target", target.toJson),
        ("carriers", CarrierSet.toJson carriers),
        ("direction", .orNull Direction.toJson direction)])
  | drop needle => ("drop", [("needle", needle.toJson)])
  | xfer start target => ("xfer", [("start", start.toJson), ("target", target.toJson)])
  | align front back => ("align", [("front", .int front), ("back", .int back)])
  | rack racking => ("rack", [("racking", .binary64 racking)])
  | switchDirection => ("switch_direction", [])
  | gauge number => ("gauge", [("gauge", .int number)])
  | sheet number => ("sheet", [("sheet", .int number)])
  | setLayer position layer =>
      ("set_layer", [("position", .int position), ("layer", .int layer)])
  | pushLayerBackward position layers =>
      ("push_layer_backward", [("position", .int position), ("layers", .int layers)])
  | pushLayerForward position layers =>
      ("push_layer_forward", [("position", .int position), ("layers", .int layers)])
  | layerToFront position => ("layer_to_front", [("position", .int position)])
  | layerToBack position => ("layer_to_back", [("position", .int position)])
  | peel number => ("peel", [("sheet", .int number)])
  | peelSheets sheets => ("peel_sheets", [("sheets", .naturals sheets)])
  | reset number => ("reset", [("sheet", .int number)])
  | resetSheets sheets => ("reset_sheets", [("sheets", .naturals sheets)])
  | comment text => ("comment", [("text", .text text)])

def toJson (operation : Operation) : Json :=
  .record (("op", .text operation.parts.1) :: operation.parts.2)

/-- A direction inside an operation; what its sign holds may also be an empty object. -/
def direction? : Json → Option Direction
  | .object [(some sign, .object [])] => Direction.choices.lookup sign
  | json => Direction.ofJson? json

def one? {α : Type} (content : Json) (name : String) (read? : Json → Option α)
    (make : α → Operation) : Option Operation := do
  let fields ← content.fields? [name]
  return make (← fields.required? name read?)

def two? {α β : Type} (content : Json) (first : String) (readFirst? : Json → Option α)
    (second : String) (readSecond? : Json → Option β) (make : α → β → Operation) :
    Option Operation := do
  let fields ← content.fields? [first, second]
  return make (← fields.required? first readFirst?) (← fields.required? second readSecond?)

def making? (content : Json) (make : Needle → CarrierSet → Option Direction → Operation) :
    Option Operation := do
  let fields ← content.fields? ["needle", "carriers", "direction"]
  return make (← fields.required? "needle" Needle.ofJson?)
    (← fields.required? "carriers" CarrierSet.ofJson?)
    (← fields.defaulted? "direction" (Json.nullable? direction?) none)

def split? (content : Json) : Option Operation := do
  let fields ← content.fields? ["start", "target", "carriers", "direction"]
  return split (← fields.required? "start" Needle.ofJson?)
    (← fields.required? "target" Needle.ofJson?)
    (← fields.required? "carriers" CarrierSet.ofJson?)
    (← fields.defaulted? "direction" (Json.nullable? direction?) none)

/-- Turning the carriage round has no fields; members of an object do not count. -/
def switchDirection? : Json → Option Operation
  | .array (_ :: _) => none
  | _ => some switchDirection

def ofParts? (name : String) (content : Json) : Option Operation :=
  match name with
  | "in" => one? content "carrier" CarrierId.ofJson? bringIn
  | "inhook" => one? content "carrier" CarrierId.ofJson? inhook
  | "releasehook" => one? content "carrier" CarrierId.ofJson? releasehook
  | "out" => one? content "carrier" CarrierId.ofJson? out
  | "outhook" => one? content "carrier" CarrierId.ofJson? outhook
  | "knit" => making? content knit
  | "tuck" => making? content tuck
  | "split" => split? content
  | "drop" => one? content "needle" Needle.ofJson? drop
  | "xfer" => two? content "start" Needle.ofJson? "target" Needle.ofJson? xfer
  | "align" => two? content "front" Json.word? "back" Json.word? align
  | "rack" => one? content "racking" Json.binary64? rack
  | "switch_direction" => switchDirection? content
  | "gauge" => one? content "gauge" Json.word? gauge
  | "sheet" => one? content "sheet" Json.word? sheet
  | "set_layer" => two? content "position" Json.word? "layer" Json.word? setLayer
  | "push_layer_backward" =>
      two? content "position" Json.word? "layers" Json.signedWord? pushLayerBackward
  | "push_layer_forward" =>
      two? content "position" Json.word? "layers" Json.signedWord? pushLayerForward
  | "layer_to_front" => one? content "position" Json.word? layerToFront
  | "layer_to_back" => one? content "position" Json.word? layerToBack
  | "peel" => one? content "sheet" Json.word? peel
  | "peel_sheets" => one? content "sheets" (Json.list? Json.word?) peelSheets
  | "reset" => one? content "sheet" Json.word? reset
  | "reset_sheets" => one? content "sheets" (Json.list? Json.word?) resetSheets
  | "comment" => one? content "text" Json.text? comment
  | _ => none

def isTag (member : Json.Member) : Bool :=
  member.1 == some "op"

def ofJson? (around : Nat) (json : Json) : Option Operation := do
  guard (json.isProper (Json.maxNesting - around))
  match json with
  | .object members =>
      match members.filter isTag with
      | [(_, tag)] => ofParts? (← tag.text?) (.object (members.filter (!isTag ·)))
      | _ => none
  | .array (tag :: items) => ofParts? (← tag.text?) (.array items)
  | _ => none

end Operation

namespace Program

def toJson (program : Program) : Json :=
  .record [("machine", .orNull Spec.toJson program.machine),
    ("operations", .array (program.operations.map Operation.toJson))]

def ofJson? (json : Json) : Option Program := do
  let fields ← json.fields? ["machine", "operations"]
  return {
    machine := ← fields.defaulted? "machine" (Json.nullable? Spec.ofJson?) none
    operations := ← fields.required? "operations" (Json.list? (Operation.ofJson? 2)) }

def ofText : String → Except Fault Program :=
  Json.readText ofJson?

end Program

end VBed
