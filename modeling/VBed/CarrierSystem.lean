import VBed.Carrier

/-!
All carriers of a machine share one inserting hook, which holds the yarn of at most one of them.
-/

namespace VBed

structure CarrierSystem where
  carriers : Array Carrier
  /-- The number of needles that the hook blocks. -/
  hookSize : Nat
  hooked : Option CarrierId
deriving DecidableEq, Inhabited

namespace CarrierSystem

def of (carrierCount hookSize : Nat) : CarrierSystem :=
  ⟨Array.ofFn fun (index : Fin carrierCount) => Carrier.parked ⟨index + 1⟩, hookSize, none⟩

def count (system : CarrierSystem) : Nat :=
  system.carriers.size

def carrier? (system : CarrierSystem) (id : CarrierId) : Option Carrier :=
  if id.number = 0 then none else system.carriers[id.number - 1]?

def carrier (system : CarrierSystem) (id : CarrierId) : Except Fault Carrier :=
  match system.carrier? id with
  | some carrier => .ok carrier
  | none => .error (.unknownCarrier id system.count)

def put (system : CarrierSystem) (id : CarrierId) (carrier : Carrier) : CarrierSystem :=
  { system with carriers := system.carriers.setIfInBounds (id.number - 1) carrier }

def update (system : CarrierSystem) (id : CarrierId) (operation : Carrier → Except Fault Carrier) :
    Except Fault CarrierSystem := do
  return system.put id (← operation (← system.carrier id))

def active (system : CarrierSystem) : List CarrierId :=
  (system.carriers.toList.filter (·.active)).map (·.id)

def isActive (system : CarrierSystem) (id : CarrierId) : Bool :=
  ((system.carrier? id).map (·.active)).getD false

def bringIn (system : CarrierSystem) (id : CarrierId) : Except Fault CarrierSystem :=
  system.update id Carrier.bringIn

def inhook (system : CarrierSystem) (id : CarrierId) : Except Fault CarrierSystem := do
  let carrier ← system.carrier id
  if carrier.active then throw (.carrierAlreadyActive id)
  if let some hooked := system.hooked then throw (.hookInUse id hooked)
  let next ← system.update id Carrier.inhook
  return { next with hooked := some id }

def releasehook (system : CarrierSystem) (id : CarrierId) : Except Fault CarrierSystem := do
  let next ← system.update id Carrier.releasehook
  return if next.hooked = some id then { next with hooked := none } else next

def out (system : CarrierSystem) (id : CarrierId) : Except Fault CarrierSystem :=
  system.update id Carrier.out

def outhook (system : CarrierSystem) (id : CarrierId) : Except Fault CarrierSystem :=
  system.update id Carrier.outhook

def checkInService (system : CarrierSystem) (carriers : CarrierSet) : Except Fault Unit :=
  carriers.forM fun id => do
    if !(← system.carrier id).active then throw (.carrierNotInService id)

def feed (system : CarrierSystem) (id : CarrierId) : Except Fault (Yarn × CarrierSystem) := do
  let carrier ← system.carrier id
  return (carrier.yarn, system.put id carrier.countLoop)

def feedAll (system : CarrierSystem) : CarrierSet → Except Fault (List Yarn × CarrierSystem)
  | [] => .ok ([], system)
  | id :: rest => do
      let (yarn, next) ← system.feed id
      let (yarns, last) ← next.feedAll rest
      return (yarn :: yarns, last)

def makeLoop (system : CarrierSystem) (carriers : CarrierSet) :
    Except Fault (List Yarn × CarrierSystem) := do
  system.checkInService carriers
  system.feedAll carriers

end CarrierSystem

end VBed
