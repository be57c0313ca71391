import VBed.Carrier
import VBed.Document.Needle
import VBed.StitchGraph

/-!
Yarns, carriers, loops and stitch graphs as JSON. The loops of each yarn are a map from yarns, which
are no keys, so that a graph with yarns is refused.
-/

namespace VBed

namespace Yarn

def toJson (yarn : Yarn) : Json :=
  .record [("carrier", yarn.carrier.toJson), ("segment", .int yarn.segment)]

def ofJson? (json : Json) : Option Yarn := do
  let fields ← json.fields? ["carrier", "segment"]
  return ⟨← fields.required? "carrier" CarrierId.ofJson?, ← fields.required? "segment" Json.word32?⟩

end Yarn

namespace Carrier

def toJson (carrier : Carrier) : Json :=
  .record [("id", carrier.id.toJson), ("yarn", carrier.yarn.toJson),
    ("is_active", .bool carrier.active), ("is_hooked", .bool carrier.hooked),
    ("loops_since_release", .int carrier.loopsSinceRelease)]

def ofJson? (json : Json) : Option Carrier := do
  let fields ← json.fields? ["id", "yarn", "is_active", "is_hooked", "loops_since_release"]
  return {
    id := ← fields.required? "id" CarrierId.ofJson?
    yarn := ← fields.required? "yarn" Yarn.ofJson?
    active := ← fields.required? "is_active" Json.bool?
    hooked := ← fields.required? "is_hooked" Json.bool?
    loopsSinceRelease := ← fields.required? "loops_since_release" Json.word? }

end Carrier

namespace LoopId

def toJson (id : LoopId) : Json :=
  .int id.index

def ofJson? (json : Json) : Option LoopId :=
  json.word?.map (⟨·⟩)

end LoopId

namespace Pull

def toJson : Pull → Json
  | backToFront => .text "BackToFront"
  | frontToBack => .text "FrontToBack"

def ofJson? : Json → Option Pull :=
  Json.choice? [("BackToFront", backToFront), ("FrontToBack", frontToBack)]

end Pull

namespace Stitch

def toJson (stitch : Stitch) : Json :=
  .record [("parent", stitch.parent.toJson), ("child", stitch.child.toJson),
    ("pull_direction", stitch.pull.toJson)]

def ofJson? (json : Json) : Option Stitch := do
  let fields ← json.fields? ["parent", "child", "pull_direction"]
  return {
    parent := ← fields.required? "parent" LoopId.ofJson?
    child := ← fields.required? "child" LoopId.ofJson?
    pull := ← fields.required? "pull_direction" Pull.ofJson? }

end Stitch

namespace Loop

def toJson (loop : Loop) : Json :=
  .record [("id", loop.id.toJson), ("yarn", loop.yarn.toJson),
    ("prior_on_yarn", .orNull LoopId.toJson loop.prior),
    ("parents", .array (loop.parents.map Stitch.toJson)),
    ("children", .array (loop.children.map Stitch.toJson))]

def ofJson? (json : Json) : Option Loop := do
  let fields ← json.fields? ["id", "yarn", "prior_on_yarn", "parents", "children"]
  return {
    id := ← fields.required? "id" LoopId.ofJson?
    yarn := ← fields.required? "yarn" Yarn.ofJson?
    prior := ← fields.optional? "prior_on_yarn" LoopId.ofJson?
    parents := ← fields.required? "parents" (Json.list? Stitch.ofJson?)
    children := ← fields.required? "children" (Json.list? Stitch.ofJson?) }

end Loop

namespace StitchGraph

def toJson (graph : StitchGraph) : Except Fault Json := do
  let yarns ← Json.ofEntries (graph.yarns.map fun (yarn, loops) =>
    (yarn.toJson, .array (loops.toList.map LoopId.toJson)))
  return .record [("loops", .array (graph.loops.toList.map Loop.toJson)), ("yarn_loops", yarns)]

def ofJson? (json : Json) : Option StitchGraph := do
  let fields ← json.fields? ["loops", "yarn_loops"]
  let loops ← fields.required? "loops" (Json.list? Loop.ofJson?)
  let yarns ← fields.required? "yarn_loops" (Json.entries? Yarn.ofJson? (Json.list? LoopId.ofJson?))
  return ⟨loops.toArray, yarns.map fun (yarn, loops) => (yarn, loops.toArray)⟩

end StitchGraph

end VBed
