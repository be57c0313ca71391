import VBed.Machine.Basic

/-!
Gauge, sheets and layers. The gauge divides the bed, and each position of a gauge group lies in
one of as many layers as there are sheets. A new gauge puts every position into the layer of its
sheet.
-/

namespace VBed.Machine

def checkEvenGauge (machine : Machine) (gauge : Nat) : Except Fault Unit := do
  checkGauge gauge
  if machine.needleCount % gauge ≠ 0 then throw (.unevenGauge gauge machine.needleCount)

/-- Changes the gauge. The sheet that is worked stays when it still exists. -/
def setGauge (gauge : Nat) : Action Unit := do
  ask (·.checkEvenGauge gauge)
  modify fun machine =>
    if gauge = machine.gauge then machine
    else
      { machine with
        gauge := gauge
        layers := machine.layers.mapIdx fun position _ => position % gauge
        sheet := if machine.sheet < gauge then machine.sheet else 0 }

def setSheet (sheet : Nat) : Action Unit := do
  ask fun machine => checkSheet sheet machine.gauge
  modify fun machine => { machine with sheet := sheet }

def sheetNeedleCount (machine : Machine) (gauge : Option Nat) : Except Fault Nat := do
  let gauge := gauge.getD machine.gauge
  machine.checkEvenGauge gauge
  return machine.needleCount / gauge

def needleAt (machine : Machine) (side : Side) (sheetPosition : Nat) (sheet gauge : Option Nat) :
    Except Fault Needle := do
  let named ← SheetNeedle.of side sheetPosition (sheet.getD machine.sheet)
    (gauge.getD machine.gauge) false
  if named.position?.isNone then throw (.needleOutOfRange (Nat.pow 2 63 - 1) machine.needleCount)
  machine.checkNeedle named.needle
  return named.needle

def sheetOf (machine : Machine) (position : Nat) : Nat :=
  position % machine.gauge

/-- The layer of a position; positions beyond the beds lie in front. -/
def layer (machine : Machine) (position : Nat) : Nat :=
  machine.layers.getD position 0

def layerAt (machine : Machine) (position : Nat) : Except Fault Nat := do
  machine.checkPosition position
  return machine.layer position

def setLayer (position layer : Nat) : Action Unit := do
  ask fun machine => do
    machine.checkPosition position
    if machine.gauge ≤ layer then throw (.layerOutOfRange layer machine.gauge)
  modify fun machine => { machine with layers := machine.layers.setIfInBounds position layer }

def shiftLayer (position shift : Nat) : Action Unit := do
  let layer ← ask (·.layerAt position)
  if shift ≠ 0 then setLayer position ((layer + shift) % (← get).gauge)

/-- Moves a position back by a number of layers, forward when it is negative. -/
def pushLayerBackward (position : Nat) (layers : Int) : Action Unit := do
  shiftLayer position (layers % (← get).gauge).toNat

def pushLayerForward (position : Nat) (layers : Int) : Action Unit := do
  let gauge := (← get).gauge
  shiftLayer position ((gauge - (layers % gauge).toNat) % gauge)

def layerToFront (position : Nat) : Action Unit :=
  setLayer position 0

def layerToBack (position : Nat) : Action Unit := do
  setLayer position ((← get).gauge - 1)

end VBed.Machine
