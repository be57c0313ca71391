import VBed.Fault

/-!
A yarn carrier is parked, in service, or in service with its yarn on the inserting hook. It comes
in with or without the hook, leaves only when its yarn is off the hook, and leaving by the hook
cuts the yarn.
-/

namespace VBed

structure Carrier where
  id : CarrierId
  yarn : Yarn
  active : Bool
  hooked : Bool
  /-- Loops made since the yarn was last put on the hook, taken off it or cut. -/
  loopsSinceRelease : Nat
deriving DecidableEq, Repr, Inhabited

namespace Carrier

def parked (id : CarrierId) : Carrier :=
  ⟨id, Yarn.first id, false, false, 0⟩

inductive State where
  | inactive
  | active
  | hooked
deriving DecidableEq, Repr

def State.text : State → String
  | inactive => "Inactive"
  | active => "Active"
  | hooked => "Active (hooked)"

def state (carrier : Carrier) : State :=
  match carrier.active, carrier.hooked with
  | false, _ => .inactive
  | true, false => .active
  | true, true => .hooked

def onGripper (carrier : Carrier) : Bool :=
  !carrier.active

def bringIn (carrier : Carrier) : Except Fault Carrier := do
  if carrier.active then throw (.carrierAlreadyActive carrier.id)
  return { carrier with active := true }

def inhook (carrier : Carrier) : Except Fault Carrier := do
  if carrier.active then throw (.carrierAlreadyActive carrier.id)
  if carrier.hooked then throw (.carrierStillHooked carrier.id)
  return { carrier with active := true, hooked := true, loopsSinceRelease := 0 }

def releasehook (carrier : Carrier) : Except Fault Carrier := do
  if !carrier.hooked then throw (.carrierNotHooked carrier.id)
  return { carrier with hooked := false, loopsSinceRelease := 0 }

def checkLeaving (carrier : Carrier) : Except Fault Unit := do
  if !carrier.active then throw (.carrierNotActive carrier.id)
  if carrier.hooked then throw (.carrierStillHooked carrier.id)

def out (carrier : Carrier) : Except Fault Carrier := do
  carrier.checkLeaving
  return { carrier with active := false }

def outhook (carrier : Carrier) : Except Fault Carrier := do
  carrier.checkLeaving
  return { carrier with active := false, yarn := carrier.yarn.cut, loopsSinceRelease := 0 }

/-- Counts a loop; the count is a machine word. -/
def countLoop (carrier : Carrier) : Carrier :=
  { carrier with loopsSinceRelease := (carrier.loopsSinceRelease + 1) % Text.wordCount }

def text (carrier : Carrier) : String :=
  carrier.id.text ++ ":" ++ carrier.yarn.text

end Carrier

end VBed
