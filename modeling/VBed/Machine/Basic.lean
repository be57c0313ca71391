import VBed.Bed
import VBed.CarrierSystem
import VBed.Direction
import VBed.Sheet
import VBed.Spec

/-!
A machine is two beds, the carriers that feed them, and the graph of all loops made. It knows the
gauge, the sheet that is worked, the layer of each position, and for each position which needles
held loops when it was last worked on purpose.
-/

namespace VBed

structure Presence where
  front : Bool
  back : Bool
deriving DecidableEq, Repr, Inhabited

def Presence.any (presence : Presence) : Bool :=
  presence.front || presence.back

structure Machine where
  spec : Spec
  /-- The position on the front bed less the position on the back bed that faces it. -/
  racking : Binary64
  frontBed : Bed
  backBed : Bed
  direction : Direction
  carriers : CarrierSystem
  graph : StitchGraph
  gauge : Nat
  sheet : Nat
  /-- The presence of loops at each position when it was last worked. -/
  record : Array Presence
  /-- The layer of each position; the lowest layer lies in front. -/
  layers : Array Nat
deriving DecidableEq

namespace Machine

def initial (spec : Spec) : Machine where
  spec := spec
  racking := .zero
  frontBed := .empty .front spec.needleCount
  backBed := .empty .back spec.needleCount
  direction := .leftToRight
  carriers := .of spec.carrierCount spec.hookSize
  graph := .empty
  gauge := 1
  sheet := 0
  record := Array.replicate spec.needleCount ⟨false, false⟩
  layers := Array.replicate spec.needleCount 0

instance : Inhabited Machine := ⟨initial .standard⟩

def of (spec : Spec) : Except Fault Machine := do
  spec.check
  return initial spec

def needleCount (machine : Machine) : Nat :=
  machine.spec.needleCount

def bed (machine : Machine) : Side → Bed
  | .front => machine.frontBed
  | .back => machine.backBed

def withBed (machine : Machine) (side : Side) (bed : Bed) : Machine :=
  match side with
  | .front => { machine with frontBed := bed }
  | .back => { machine with backBed := bed }

def loopsAt (machine : Machine) (needle : Needle) : Except Fault (List LoopId) :=
  (machine.bed needle.side).loopsAt needle

def checkNeedle (machine : Machine) (needle : Needle) : Except Fault Unit :=
  (machine.bed needle.side).check needle

def hasLoops (machine : Machine) (needle : Needle) : Except Fault Bool :=
  (machine.bed needle.side).hasLoops needle

def isClear (machine : Machine) (needle : Needle) : Except Fault Bool :=
  (machine.bed needle.side).isClear needle

def slidersAreClear (machine : Machine) : Bool :=
  machine.frontBed.slidersAreClear && machine.backBed.slidersAreClear

def heldCount (machine : Machine) : Nat :=
  machine.frontBed.loopCount + machine.backBed.loopCount

def needleOf (machine : Machine) (loop : LoopId) : Except Fault (Option Needle) :=
  match machine.frontBed.needleOf? loop, machine.backBed.needleOf? loop with
  | some front, some back => .error (.loopOnBothBeds loop front back)
  | front, back => .ok (front.or back)

def checkPosition (machine : Machine) (position : Nat) : Except Fault Unit :=
  if machine.needleCount ≤ position then
    .error (.needleOutOfRange (Text.signedWord position) machine.needleCount)
  else .ok ()

def holdsLoops (bed : Bed) (position : Nat) : Bool :=
  !(bed.needles.getD position []).isEmpty

def presence (machine : Machine) (position : Nat) : Presence :=
  ⟨holdsLoops machine.frontBed position, holdsLoops machine.backBed position⟩

def presenceAt (machine : Machine) (position : Nat) : Except Fault Presence := do
  machine.checkNeedle (.front position)
  return machine.presence position

def recordAt (machine : Machine) (position : Nat) : Except Fault Presence := do
  machine.checkPosition position
  return machine.record.getD position ⟨false, false⟩

abbrev Action := EStateM Fault Machine

def ask {α : Type} (query : Machine → Except Fault α) : Action α := fun machine =>
  match query machine with
  | .ok answer => .ok answer machine
  | .error fault => .error fault machine

def equipped (machine : Machine) (side : Side) (bed : Bed) (graph : StitchGraph) : Machine :=
  { machine.withBed side bed with graph := graph }

def onBed {α : Type} (side : Side) (action : Bed.Action α) : Action α := fun machine =>
  let bed := machine.bed side
  let graph := machine.graph
  let rest := machine.equipped side default .empty
  match action (bed, graph) with
  | .ok answer (bed, graph) => .ok answer (rest.equipped side bed graph)
  | .error fault (bed, graph) => .error fault (rest.equipped side bed graph)

theorem equipped_equipped (machine : Machine) (side : Side) (bed other : Bed)
    (graph next : StitchGraph) :
    (machine.equipped side bed graph).equipped side other next =
      machine.equipped side other next := by
  cases side <;> rfl

def onCarriers {α : Type} (operation : CarrierSystem → Except Fault (α × CarrierSystem)) :
    Action α := fun machine =>
  match operation machine.carriers with
  | .ok (answer, carriers) => .ok answer { machine with carriers := carriers }
  | .error fault => .error fault machine

def switchDirection : Action Unit :=
  modify fun machine => { machine with direction := machine.direction.opposite }

def recordPosition (position : Nat) : Action Unit := do
  let presence ← ask (·.presenceAt position)
  modify fun machine => { machine with record := machine.record.setIfInBounds position presence }

end Machine

end VBed
