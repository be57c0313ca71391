import VBed.Machine.Basic

/-!
Racking shifts the back bed against the front bed. A front and a back needle face each other when
the difference of their positions is the racking.
-/

namespace VBed.Machine

def rackingBetween (front back : Nat) : Binary64 :=
  (Binary64.ofNat front).sub (.ofNat back)

def faces (machine : Machine) (front back : Nat) : Bool :=
  machine.racking.equal (rackingBetween front back)

def checkRacking (machine : Machine) (racking : Binary64) : Except Fault Unit := do
  if !racking.isFinite || machine.spec.maxRack.less racking.abs then
    throw (.rackingOutOfRange racking machine.spec.maxRack)

def setRacking (racking : Binary64) : Action Bool := do
  ask (·.checkRacking racking)
  let machine ← get
  set { machine with racking := racking }
  return !machine.racking.equal racking

def align (front back : Nat) : Action Bool :=
  setRacking (rackingBetween front back)

/-- The needle or slider that a needle faces; a racking between two positions counts as the lower
one. -/
def facing (machine : Machine) (needle : Needle) (slider : Bool) : Except Fault Needle := do
  let start := Text.signedWord needle.position
  let offset := machine.racking.floorWord
  let position := Text.signedWord (match needle.side with
    | .front => start - offset
    | .back => start + offset)
  if position < 0 ∨ (machine.needleCount : Int) ≤ position then
    throw (.needleOutOfRange position machine.needleCount)
  return ⟨needle.side.opposite, position.toNat, slider⟩

end VBed.Machine
