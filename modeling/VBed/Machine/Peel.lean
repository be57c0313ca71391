import VBed.Knitout
import VBed.Machine.Layer
import VBed.Machine.Work

/-!
Peeling clears the way of a sheet. In a gauge group, loops of other sheets block the sheet when
they lie on the front needle in a layer behind it, or on the back needle in a layer before it;
peeling moves them to the opposite needle, off the record. Several sheets can be worked together
while they share a layer in every gauge group that other sheets have loops in.
-/

namespace VBed.Machine

structure PeelPlan where
  moves : List Needle
  /-- The positions of other sheets that have loops in the layer of the sheet, in order. -/
  sameLayer : List Nat
deriving DecidableEq, Repr

def groupStart (machine : Machine) (position : Nat) : Nat :=
  position / machine.gauge * machine.gauge

def sheetLayer (machine : Machine) (sheet position : Nat) : Nat :=
  machine.layer (machine.groupStart position + sheet)

def blocker? (machine : Machine) (activeLayer position : Nat) : Option Needle :=
  let presence := machine.presence position
  let layer := machine.layer position
  if layer < activeLayer ∧ presence.back then some (.back position)
  else if activeLayer < layer ∧ presence.front then some (.front position)
  else none

def otherPositions (machine : Machine) (sheets : List Nat) : List Nat :=
  (List.range machine.needleCount).filter fun position =>
    (machine.presence position).any && !sheets.contains (machine.sheetOf position)

def peelPlan (machine : Machine) (sheet : Nat) : Except Fault PeelPlan := do
  checkSheet sheet machine.gauge
  let others := machine.otherPositions [sheet]
  return {
    moves := others.filterMap fun position =>
      machine.blocker? (machine.sheetLayer sheet position) position
    sameLayer := others.filter fun position =>
      machine.layer position == machine.sheetLayer sheet position }

def sharedLayer (machine : Machine) (sheets : List Nat) (position : Nat) : Nat :=
  (sheets.head?.map (machine.sheetLayer · position)).getD 0

/-- Refuses sheets that do not share one layer in the gauge group of a position, or that share it
with the position itself. -/
def checkSeparable (machine : Machine) (sheets : List Nat) (position : Nat) :
    Except Fault Unit := do
  let activeLayer := machine.sharedLayer sheets position
  if sheets.any (machine.sheetLayer · position ≠ activeLayer) then
    throw (.inconsistentSheetLayering sheets position)
  if machine.layer position = activeLayer then
    throw (.unseparableSheets (machine.sheetOf position) sheets position)

def peelPlanAll (machine : Machine) (sheets : List Nat) : Except Fault PeelPlan := do
  if sheets.isEmpty then throw .noActiveSheets
  sheets.forM (checkSheet · machine.gauge)
  let others := machine.otherPositions sheets
  others.forM (machine.checkSeparable sheets)
  return {
    moves := others.filterMap fun position =>
      machine.blocker? (machine.sharedLayer sheets position) position
    sameLayer := [] }

def PeelPlan.movesOf (plan : PeelPlan) (machine : Machine) (sheet : Nat) : List Needle :=
  plan.moves.filter fun needle => machine.sheetOf needle.position == sheet

def PeelPlan.ordered (plan : PeelPlan) (machine : Machine) : List Needle :=
  (List.range machine.gauge).flatMap (plan.movesOf machine)

def checkCrossings (machine : Machine) (needles : List Needle) : Except Fault Unit :=
  needles.forM fun needle => do
    machine.checkClear needle
    machine.checkClear needle.opposite

def straighten : Action (List Line) := do
  let changed ← setRacking .zero
  return if changed then [.plain (.rack .zero)] else []

def moveAcross (needle : Needle) : Action Line := do
  let _ ← shift needle needle.opposite
  return .plain (.xfer needle needle.opposite)

def peelSheet (plan : PeelPlan) (active : String) (sheet : Nat) : Action (List Line) := do
  let lines ← (plan.movesOf (← get) sheet).mapM moveAcross
  return .comment (" Peel sheet " ++ Text.decimal sheet ++ " relative to " ++ active) :: lines

def carryOut (plan : PeelPlan) (active : String) : Action (List Line) := do
  let lines ← (List.range (← get).gauge).mapM (peelSheet plan active)
  return lines.flatten

def straightenFor (needles : List Needle) : Action (List Line) :=
  if needles.isEmpty then return [] else straighten

def peelBy (plan : PeelPlan) (active : String) : Action (List Line) := do
  ask fun machine => machine.checkCrossings (plan.ordered machine)
  return (← straightenFor plan.moves) ++ (← carryOut plan active)

/-- Clears the way of a sheet. Beside the lines it gives the positions of other sheets that lie in
the same layer and stay in the way. -/
def peel (sheet : Nat) : Action (List Line × List Nat) := do
  let plan ← ask (·.peelPlan sheet)
  return (← peelBy plan (Text.decimal sheet), plan.sameLayer)

def peelAll (sheets : List Nat) : Action (List Line) := do
  let plan ← ask (·.peelPlanAll sheets)
  peelBy plan (Text.bracketed sheets)

end VBed.Machine
