import VBed.Machine.Reset

/-!
A program is a list of operations for a machine. Running it gives the knitout of every operation
in turn; the first operation that is refused stops the run.
-/

namespace VBed

inductive Operation where
  | bringIn (carrier : CarrierId)
  | inhook (carrier : CarrierId)
  | releasehook (carrier : CarrierId)
  | out (carrier : CarrierId)
  | outhook (carrier : CarrierId)
  | knit (needle : Needle) (carriers : CarrierSet) (direction : Option Direction)
  | tuck (needle : Needle) (carriers : CarrierSet) (direction : Option Direction)
  | split (start target : Needle) (carriers : CarrierSet) (direction : Option Direction)
  | drop (needle : Needle)
  | xfer (start target : Needle)
  | align (front back : Nat)
  | rack (racking : Binary64)
  | switchDirection
  | gauge (gauge : Nat)
  | sheet (sheet : Nat)
  | setLayer (position layer : Nat)
  | pushLayerBackward (position : Nat) (layers : Int)
  | pushLayerForward (position : Nat) (layers : Int)
  | layerToFront (position : Nat)
  | layerToBack (position : Nat)
  | peel (sheet : Nat)
  | peelSheets (sheets : List Nat)
  | reset (sheet : Nat)
  | resetSheets (sheets : List Nat)
  | comment (text : String)
deriving DecidableEq

namespace Operation

open Machine (Action)

def emit {α : Type} (work : Action α) (instruction : Instruction) : Action (List Line) := do
  let _ ← work
  return [.plain instruction]

def silently (work : Action Unit) : Action (List Line) := do
  work
  return []

/-- Like `emit`, in the given direction or else in that of the last pass. -/
def emitPass {α : Type} (direction : Option Direction) (work : Action α)
    (instruction : Direction → Instruction) : Action (List Line) := do
  let last := (← get).direction
  emit work (instruction (direction.getD last))

/-- Racks the machine; the line gives the racking when it has changed. -/
def emitRack (work : Action Bool) (racking : Binary64) : Action (List Line) := do
  let changed ← work
  return if changed then [.plain (.rack racking)] else []

def apply : Operation → Action (List Line)
  | bringIn carrier => emit (Machine.bringIn carrier) (.bringIn [carrier])
  | inhook carrier => emit (Machine.inhook carrier) (.inhook [carrier])
  | releasehook carrier => emit (Machine.releasehook carrier) (.releasehook [carrier])
  | out carrier => emit (Machine.out carrier) (.out [carrier])
  | outhook carrier => emit (Machine.outhook carrier) (.outhook [carrier])
  | knit needle carriers direction =>
      emitPass direction (Machine.knit needle carriers) (.knit · needle carriers)
  | tuck needle carriers direction =>
      emitPass direction (Machine.tuck needle carriers) (.tuck · needle carriers)
  | split start target carriers direction =>
      emitPass direction (Machine.split start target carriers) (.split · start target carriers)
  | drop needle => emit (Machine.drop needle) (.drop needle)
  | xfer start target => emit (Machine.xfer start target) (.xfer start target)
  | align front back =>
      emitRack (Machine.align front back) (Machine.rackingBetween front back)
  | rack racking => emitRack (Machine.setRacking racking) racking
  | switchDirection => silently Machine.switchDirection
  | gauge number => silently (Machine.setGauge number)
  | sheet number => silently (Machine.setSheet number)
  | setLayer position layer => silently (Machine.setLayer position layer)
  | pushLayerBackward position layers => silently (Machine.pushLayerBackward position layers)
  | pushLayerForward position layers => silently (Machine.pushLayerForward position layers)
  | layerToFront position => silently (Machine.layerToFront position)
  | layerToBack position => silently (Machine.layerToBack position)
  | peel number => do return (← Machine.peel number).1
  | peelSheets sheets => Machine.peelAll sheets
  | reset number => Machine.reset number
  | resetSheets sheets => Machine.resetAll sheets
  | comment text => return [.comment text]

end Operation

structure Program where
  machine : Option Spec
  operations : List Operation
deriving DecidableEq

namespace Program

def start (program : Program) (otherwise : Spec) : Except Fault Machine :=
  Machine.of (program.machine.getD otherwise)

def runAll : List Operation → Machine.Action (List Line)
  | [] => return []
  | operation :: rest => do
      let lines ← operation.apply
      return lines ++ (← runAll rest)

def run (program : Program) : Machine.Action (List Line) :=
  runAll program.operations

end Program

end VBed
