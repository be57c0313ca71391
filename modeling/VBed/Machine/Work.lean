import VBed.Machine.Racking

/-!
The work of the machine: knitting, tucking, splitting, dropping and transferring, and the
movements of carriers. Everything is checked before anything is done. Work on purpose puts the
positions it touches on record.
-/

namespace VBed

inductive Work where
  | knit
  | tuck
  | split
  | drop
deriving DecidableEq, Repr

def Work.verb : Work → String
  | knit => "knit"
  | tuck => "tuck"
  | split => "split"
  | drop => "drop"

namespace Machine

def bringIn (carrier : CarrierId) : Action Unit :=
  onCarriers fun carriers => return ((), ← carriers.bringIn carrier)

def inhook (carrier : CarrierId) : Action Unit :=
  onCarriers fun carriers => return ((), ← carriers.inhook carrier)

def releasehook (carrier : CarrierId) : Action Unit :=
  onCarriers fun carriers => return ((), ← carriers.releasehook carrier)

def out (carrier : CarrierId) : Action Unit :=
  onCarriers fun carriers => return ((), ← carriers.out carrier)

def outhook (carrier : CarrierId) : Action Unit :=
  onCarriers fun carriers => return ((), ← carriers.outhook carrier)

/-- Refuses work on a slider, and work on any needle while sliders hold loops. -/
def checkWork (machine : Machine) (work : Work) (needle : Needle) : Except Fault Unit := do
  machine.checkNeedle needle
  if needle.slider then throw (.sliderOperation work.verb needle)
  if !machine.slidersAreClear then throw (.slidersInUse work.verb)

def checkMaking (machine : Machine) (work : Work) (needle : Needle) (carriers : CarrierSet) :
    Except Fault Unit := do
  machine.checkWork work needle
  machine.carriers.checkInService carriers

def checkClear (machine : Machine) (needle : Needle) : Except Fault Unit := do
  if !(← machine.isClear needle) then throw (.needleNotClear needle)

def checkFacing (machine : Machine) (start target : Needle) : Except Fault Unit := do
  let (front, back) := match start.side with
    | .front => (start, target)
    | .back => (target, start)
  if !machine.faces front.position back.position then
    throw (.rackingMismatch machine.racking front back)

def checkTransfer (machine : Machine) (start target : Needle) : Except Fault Unit := do
  machine.checkNeedle start
  machine.checkNeedle target
  if start.side = target.side then throw (.sameBedTransfer start target)
  machine.checkClear target
  machine.checkClear start
  machine.checkFacing start target

def makeLoops (needle : Needle) (carriers : CarrierSet) (dropPrior : Bool) :
    Action (List LoopId) := do
  let yarns ← onCarriers (·.makeLoop carriers)
  onBed needle.side (Bed.addLoops needle (.made yarns) dropPrior)

def takeLoops (needle : Needle) : Action (List LoopId) :=
  onBed needle.side fun (bed, graph) =>
    match bed.drop needle with
    | .ok (loops, next) => .ok loops (next, graph)
    | .error fault => .error fault (bed, graph)

/-- Moves the loops of one needle to another, behind those it holds. -/
def moveLoops (start target : Needle) : Action (List LoopId) := do
  let loops ← takeLoops start
  if !loops.isEmpty then
    let _ ← onBed target.side (Bed.addLoops target (.moved loops) false)
  return loops

def knit (needle : Needle) (carriers : CarrierSet) : Action (List LoopId) := do
  ask (·.checkMaking .knit needle carriers)
  let loops ← makeLoops needle carriers true
  recordPosition needle.position
  return loops

def tuck (needle : Needle) (carriers : CarrierSet) : Action (List LoopId) := do
  ask (·.checkMaking .tuck needle carriers)
  let loops ← makeLoops needle carriers false
  recordPosition needle.position
  return loops

def drop (needle : Needle) : Action (List LoopId) := do
  ask (·.checkWork .drop needle)
  let loops ← takeLoops needle
  recordPosition needle.position
  return loops

/-- Transfers the loops of a needle to a needle of the other bed, off the record. -/
def shift (start target : Needle) : Action (List LoopId) := do
  ask (·.checkTransfer start target)
  moveLoops start target

def xfer (start target : Needle) : Action (List LoopId) := do
  let loops ← shift start target
  recordPosition start.position
  recordPosition target.position
  return loops

/-- Refuses a split unless both the transfer and the knitting are possible, and unless the loops
end on an ordinary needle. -/
def checkSplit (machine : Machine) (start target : Needle) (carriers : CarrierSet) :
    Except Fault Unit := do
  machine.checkTransfer start target
  machine.checkMaking .split start carriers
  if target.slider && (← machine.hasLoops start) then throw (.slidersInUse Work.split.verb)

def split (start target : Needle) (carriers : CarrierSet) : Action (List LoopId) := do
  ask (·.checkSplit start target carriers)
  let _ ← moveLoops start target
  let loops ← makeLoops start carriers true
  recordPosition start.position
  recordPosition target.position
  return loops

end Machine

end VBed
