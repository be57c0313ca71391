import VBed.Fault

/-!
The stitch graph holds every loop ever made, in the order of making, with the stitches between
loops and, for each yarn, its loops in order.
-/

namespace VBed

inductive Pull where
  | backToFront
  | frontToBack
deriving DecidableEq, Repr, Inhabited

namespace Pull

def opposite : Pull → Pull
  | backToFront => frontToBack
  | frontToBack => backToFront

def text : Pull → String
  | backToFront => "BtF"
  | frontToBack => "FtB"

end Pull

structure Stitch where
  parent : LoopId
  child : LoopId
  pull : Pull
deriving DecidableEq, Repr, Inhabited

structure Loop where
  id : LoopId
  yarn : Yarn
  /-- The loop made just before this one from the same yarn. -/
  prior : Option LoopId
  parents : List Stitch
  children : List Stitch
deriving DecidableEq, Repr, Inhabited

structure StitchGraph where
  loops : Array Loop
  yarns : List (Yarn × Array LoopId)
deriving DecidableEq

namespace StitchGraph

def empty : StitchGraph := ⟨#[], []⟩

instance : Inhabited StitchGraph := ⟨empty⟩

def loopCount (graph : StitchGraph) : Nat :=
  graph.loops.size

def stitchCount (graph : StitchGraph) : Nat :=
  (graph.loops.toList.flatMap (·.parents)).length

def loop? (graph : StitchGraph) (id : LoopId) : Option Loop :=
  graph.loops[id.index]?

def contains (graph : StitchGraph) (id : LoopId) : Bool :=
  id.index < graph.loopCount

def yarnLoops (graph : StitchGraph) (yarn : Yarn) : Array LoopId :=
  (graph.yarns.lookup yarn).getD #[]

def appendToYarn (yarn : Yarn) (id : LoopId) :
    List (Yarn × Array LoopId) → List (Yarn × Array LoopId)
  | [] => [(yarn, #[id])]
  | (other, loops) :: rest =>
      if other = yarn then (other, loops.push id) :: rest
      else if yarn.before other then (yarn, #[id]) :: (other, loops) :: rest
      else (other, loops) :: appendToYarn yarn id rest

def newLoop (graph : StitchGraph) (yarn : Yarn) : LoopId × StitchGraph :=
  let id : LoopId := ⟨graph.loopCount⟩
  let prior := (graph.yarnLoops yarn).back?
  (id, ⟨graph.loops.push ⟨id, yarn, prior, [], []⟩, appendToYarn yarn id graph.yarns⟩)

def check (graph : StitchGraph) (id : LoopId) : Except Fault Unit :=
  if graph.contains id then .ok () else .error (.unknownLoop id)

def addStitch (graph : StitchGraph) (stitch : Stitch) : StitchGraph :=
  let withChild := graph.loops.modify stitch.parent.index fun loop =>
    { loop with children := loop.children ++ [stitch] }
  { graph with
    loops := withChild.modify stitch.child.index fun loop =>
      { loop with parents := loop.parents ++ [stitch] } }

def connect (graph : StitchGraph) (parent child : LoopId) (pull : Pull) :
    Except Fault StitchGraph := do
  graph.check parent
  graph.check child
  return graph.addStitch ⟨parent, child, pull⟩

end StitchGraph

end VBed
