import VBed.StitchGraph

/-!
A bed holds loops on its needles and sliders. Loops are placed on a needle either newly made from
yarns or moved from elsewhere; what the needle held before stays, or becomes the parents of the
new loops. An operation that is refused midway keeps what it has done so far.
-/

namespace VBed

inductive LoopSource where
  | made (yarns : List Yarn)
  | moved (loops : List LoopId)
deriving DecidableEq, Repr

structure Bed where
  side : Side
  needles : Array (List LoopId)
  sliders : Array (List LoopId)
deriving DecidableEq, Inhabited

namespace Bed

def empty (side : Side) (needleCount : Nat) : Bed :=
  ⟨side, Array.replicate needleCount [], Array.replicate needleCount []⟩

def needleCount (bed : Bed) : Nat :=
  bed.needles.size

def slots (bed : Bed) (slider : Bool) : Array (List LoopId) :=
  if slider then bed.sliders else bed.needles

/-- The loops of a needle. Only its position and kind count, not its side. -/
def at? (bed : Bed) (needle : Needle) : Option (List LoopId) :=
  (bed.slots needle.slider)[needle.position]?

def loopsAt (bed : Bed) (needle : Needle) : Except Fault (List LoopId) :=
  match bed.at? needle with
  | some loops => .ok loops
  | none => .error (.needleOutOfRange (Text.signedWord needle.position) bed.needleCount)

def check (bed : Bed) (needle : Needle) : Except Fault Unit := do
  let _ ← bed.loopsAt needle

def hasLoops (bed : Bed) (needle : Needle) : Except Fault Bool := do
  return !(← bed.loopsAt needle).isEmpty

/-- A slider is clear; an ordinary needle is clear when its slider holds no loops. -/
def isClear (bed : Bed) (needle : Needle) : Except Fault Bool := do
  let loops ← bed.loopsAt needle.asSlider
  return needle.slider || loops.isEmpty

def slidersAreClear (bed : Bed) : Bool :=
  bed.sliders.all (·.isEmpty)

def put (bed : Bed) (needle : Needle) (loops : List LoopId) : Bed :=
  if needle.slider then { bed with sliders := bed.sliders.setIfInBounds needle.position loops }
  else { bed with needles := bed.needles.setIfInBounds needle.position loops }

def append (bed : Bed) (needle : Needle) (loops : List LoopId) : Bed :=
  bed.put needle ((bed.at? needle).getD [] ++ loops)

def pull (bed : Bed) : Pull :=
  match bed.side with
  | .front => .frontToBack
  | .back => .backToFront

def drop (bed : Bed) (needle : Needle) : Except Fault (List LoopId × Bed) := do
  let loops ← bed.loopsAt needle
  return (loops, bed.put needle [])

abbrev Action := EStateM Fault (Bed × StitchGraph)

def pullThrough (child : LoopId) (pull : Pull) : List LoopId → Action Unit
  | [] => return
  | parent :: rest => do
      let (bed, graph) ← get
      match graph.connect parent child pull with
      | .ok next => set (bed, next)
      | .error fault => throw fault
      pullThrough child pull rest

def makeLoops (parents : List LoopId) (pull : Pull) : List Yarn → Action (List LoopId)
  | [] => return []
  | yarn :: rest => do
      let (bed, graph) ← get
      let (child, next) := graph.newLoop yarn
      set (bed, next)
      pullThrough child pull parents
      return child :: (← makeLoops parents pull rest)

/-- Places loops on a needle. With `dropPrior` the loops it held are taken off first, and new
loops are pulled through them. -/
def addLoops (needle : Needle) (source : LoopSource) (dropPrior : Bool) : Action (List LoopId) := do
  let (bed, graph) ← get
  match bed.loopsAt needle with
  | .error fault => throw fault
  | .ok prior =>
      if dropPrior then set (bed.put needle [], graph)
      let added ← match source with
        | .made yarns => makeLoops (if dropPrior then prior else []) bed.pull yarns
        | .moved loops => pure loops
      modify fun (bed, graph) => (bed.append needle added, graph)
      return added

def positionOf? (slots : Array (List LoopId)) (loop : LoopId) : Option Nat :=
  slots.findIdx? (·.contains loop)

def needleOf? (bed : Bed) (loop : LoopId) : Option Needle :=
  ((positionOf? bed.needles loop).map (⟨bed.side, ·, false⟩)).or
    ((positionOf? bed.sliders loop).map (⟨bed.side, ·, true⟩))

def names (bed : Bed) (slider : Bool) : List Needle :=
  (List.range (bed.slots slider).size).map (⟨bed.side, ·, slider⟩)

def loopCount (bed : Bed) : Nat :=
  bed.needles.toList.flatten.length + bed.sliders.toList.flatten.length

end Bed

end VBed
