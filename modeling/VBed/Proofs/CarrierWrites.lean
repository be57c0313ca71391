import VBed.Proofs.CarrierMoves

/-!
The operations on carriers once more, one write after the other. A carrier is changed in place, and
a fault keeps what was written before it. No check comes behind a write, so an operation that is
refused leaves the carriers as they were, and the machine with them.
-/

namespace VBed

/-- An operation that leaves the state alone when it is refused. -/
def settle {σ α : Type} (operation : σ → Except Fault (α × σ)) : EStateM Fault σ α := fun state =>
  match operation state with
  | .ok (answer, next) => .ok answer next
  | .error fault => .error fault state

def settleUnit {σ : Type} (operation : σ → Except Fault σ) : EStateM Fault σ Unit :=
  settle fun state => return ((), ← operation state)

def reading {σ α : Type} (query : σ → Except Fault α) : EStateM Fault σ α :=
  settle fun state => return (← query state, state)

section Settling

variable {σ α β : Type} {state : σ}

theorem settleUnit_run {operation : σ → Except Fault σ} :
    settleUnit operation state =
      match operation state with
      | .ok next => .ok () next
      | .error fault => .error fault state := by
  rw [settleUnit, settle]
  cases operation state <;> rfl

theorem settleUnit_bind_run {operation : σ → Except Fault σ} {rest : Unit → EStateM Fault σ β} :
    (settleUnit operation >>= rest) state =
      match operation state with
      | .ok next => rest () next
      | .error fault => .error fault state := by
  simp only [bind, EStateM.bind, settleUnit_run]
  cases operation state <;> rfl

theorem reading_bind_run {query : σ → Except Fault α} {rest : α → EStateM Fault σ β} :
    (reading query >>= rest) state =
      match query state with
      | .ok answer => rest answer state
      | .error fault => .error fault state := by
  simp only [bind, EStateM.bind, reading, settle]
  cases query state <;> rfl

end Settling

namespace Carrier.Writing

def bringIn : EStateM Fault Carrier Unit := do
  if (← get).active then throw (.carrierAlreadyActive (← get).id)
  modify fun carrier => { carrier with active := true }

def inhook : EStateM Fault Carrier Unit := do
  if (← get).active then throw (.carrierAlreadyActive (← get).id)
  if (← get).hooked then throw (.carrierStillHooked (← get).id)
  modify fun carrier => { carrier with active := true }
  modify fun carrier => { carrier with hooked := true }
  modify fun carrier => { carrier with loopsSinceRelease := 0 }

def releasehook : EStateM Fault Carrier Unit := do
  if !(← get).hooked then throw (.carrierNotHooked (← get).id)
  modify fun carrier => { carrier with hooked := false }
  modify fun carrier => { carrier with loopsSinceRelease := 0 }

def checkLeaving : EStateM Fault Carrier Unit := do
  if !(← get).active then throw (.carrierNotActive (← get).id)
  if (← get).hooked then throw (.carrierStillHooked (← get).id)

def out : EStateM Fault Carrier Unit := do
  checkLeaving
  modify fun carrier => { carrier with active := false }

def outhook : EStateM Fault Carrier Unit := do
  checkLeaving
  modify fun carrier => { carrier with active := false }
  modify fun carrier => { carrier with yarn := carrier.yarn.cut }
  modify fun carrier => { carrier with loopsSinceRelease := 0 }

def feed : EStateM Fault Carrier Yarn := do
  modify Carrier.countLoop
  return (← get).yarn

theorem bringIn_eq : bringIn = settleUnit Carrier.bringIn := by
  funext ⟨id, yarn, active, hooked, loops⟩
  cases active <;> rfl

theorem inhook_eq : inhook = settleUnit Carrier.inhook := by
  funext ⟨id, yarn, active, hooked, loops⟩
  cases active <;> cases hooked <;> rfl

theorem releasehook_eq : releasehook = settleUnit Carrier.releasehook := by
  funext ⟨id, yarn, active, hooked, loops⟩
  cases hooked <;> rfl

theorem out_eq : out = settleUnit Carrier.out := by
  funext ⟨id, yarn, active, hooked, loops⟩
  cases active <;> cases hooked <;> rfl

theorem outhook_eq : outhook = settleUnit Carrier.outhook := by
  funext ⟨id, yarn, active, hooked, loops⟩
  cases active <;> cases hooked <;> rfl

end Carrier.Writing

namespace CarrierSystem

variable {system next : CarrierSystem}

theorem put_of_found {id : CarrierId} {carrier : Carrier}
    (found : system.carrier? id = some carrier) : system.put id carrier = system := by
  simp only [carrier?] at found
  split at found
  · cases found
  · obtain ⟨inRange, rfl⟩ := Array.getElem?_eq_some_iff.mp found
    simp [put, Array.setIfInBounds, inRange]

namespace Writing

/-- Works on the carrier with a number, which keeps what is written to it before a fault. -/
def inPlace {α : Type} (id : CarrierId) (operation : EStateM Fault Carrier α) :
    EStateM Fault CarrierSystem α := fun system =>
  match system.carrier id with
  | .error fault => .error fault system
  | .ok carrier =>
      match operation carrier with
      | .ok answer changed => .ok answer (system.put id changed)
      | .error fault changed => .error fault (system.put id changed)

def bringIn (id : CarrierId) : EStateM Fault CarrierSystem Unit :=
  inPlace id Carrier.Writing.bringIn

def inhook (id : CarrierId) : EStateM Fault CarrierSystem Unit := do
  let carrier ← reading (·.carrier id)
  if carrier.active then throw (.carrierAlreadyActive id)
  if let some hooked := (← get).hooked then throw (.hookInUse id hooked)
  inPlace id Carrier.Writing.inhook
  modify fun system => { system with hooked := some id }

def releasehook (id : CarrierId) : EStateM Fault CarrierSystem Unit := do
  inPlace id Carrier.Writing.releasehook
  if (← get).hooked = some id then modify fun system => { system with hooked := none }

def out (id : CarrierId) : EStateM Fault CarrierSystem Unit :=
  inPlace id Carrier.Writing.out

def outhook (id : CarrierId) : EStateM Fault CarrierSystem Unit :=
  inPlace id Carrier.Writing.outhook

/-- The loop over the carriers looks each of them up again, after it wrote to those before. -/
def makeLoop (carriers : CarrierSet) : EStateM Fault CarrierSystem (List Yarn) := do
  reading (·.checkInService carriers)
  carriers.mapM fun id => inPlace id Carrier.Writing.feed

theorem inPlace_settleUnit (id : CarrierId) (operation : Carrier → Except Fault Carrier) :
    inPlace id (settleUnit operation) = settleUnit (·.update id operation) := by
  funext system
  rw [inPlace, settleUnit_run, update]
  cases found : system.carrier id with
  | error fault => rfl
  | ok carrier =>
      simp only [settleUnit_run]
      cases ran : operation carrier with
      | ok changed => simp [bind, Except.bind, ran, pure, Except.pure]
      | error fault =>
          simp [bind, Except.bind, ran, put_of_found (carrier_eq_ok.mp found)]

theorem bringIn_eq (id : CarrierId) : bringIn id = settleUnit (·.bringIn id) := by
  rw [bringIn, Carrier.Writing.bringIn_eq, inPlace_settleUnit]
  rfl

theorem inhook_eq (id : CarrierId) : inhook id = settleUnit (·.inhook id) := by
  funext system
  rw [inhook, Carrier.Writing.inhook_eq, inPlace_settleUnit, reading_bind_run, settleUnit_run,
    CarrierSystem.inhook]
  cases system.carrier id with
  | error fault => rfl
  | ok carrier =>
      obtain ⟨number, yarn, active, onHook, loops⟩ := carrier
      obtain ⟨carriers, hookSize, hooked⟩ := system
      cases active with
      | true => rfl
      | false =>
          cases hooked with
          | some hooked => rfl
          | none =>
              change (settleUnit _ >>= _) _ = _
              rw [settleUnit_bind_run]
              simp only [bind, Except.bind]
              cases CarrierSystem.update ⟨carriers, hookSize, none⟩ id Carrier.inhook <;> rfl

theorem releasehook_eq (id : CarrierId) : releasehook id = settleUnit (·.releasehook id) := by
  funext system
  rw [releasehook, Carrier.Writing.releasehook_eq, inPlace_settleUnit, settleUnit_bind_run,
    settleUnit_run, CarrierSystem.releasehook]
  cases system.update id Carrier.releasehook with
  | error fault => rfl
  | ok next =>
      change (if next.hooked = some id then _ else _ : EStateM Fault CarrierSystem Unit) next = _
      simp only [bind, Except.bind, pure, Except.pure]
      split <;> rfl

theorem out_eq (id : CarrierId) : out id = settleUnit (·.out id) := by
  rw [out, Carrier.Writing.out_eq, inPlace_settleUnit]
  rfl

theorem outhook_eq (id : CarrierId) : outhook id = settleUnit (·.outhook id) := by
  rw [outhook, Carrier.Writing.outhook_eq, inPlace_settleUnit]
  rfl

theorem inPlace_feed {id : CarrierId} {yarn : Yarn} (fed : system.feed id = .ok (yarn, next)) :
    inPlace id Carrier.Writing.feed system = .ok yarn next := by
  obtain ⟨carrier, found, rfl, rfl⟩ := feed_eq_ok.mp fed
  rw [inPlace, carrier_eq_ok.mpr found]
  rfl

theorem mapM_feed {carriers : CarrierSet} {yarns : List Yarn}
    (fed : system.feedAll carriers = .ok (yarns, next)) :
    (carriers.mapM fun id => inPlace id Carrier.Writing.feed) system = .ok yarns next := by
  induction carriers generalizing system yarns with
  | nil =>
      cases fed
      rfl
  | cons id rest ih =>
      simp only [feedAll, bind_eq_ok] at fed
      obtain ⟨⟨yarn, middle⟩, first, ⟨others, last⟩, later, same⟩ := fed
      cases same
      rw [List.mapM_cons, run_bind_ok (inPlace_feed first), run_bind_ok (ih later)]
      rfl

/-- Once all carriers are known to be in service, none is missing when its turn comes. -/
theorem makeLoop_eq (carriers : CarrierSet) : makeLoop carriers = settle (·.makeLoop carriers) := by
  funext system
  rw [makeLoop, reading_bind_run]
  cases inService : system.checkInService carriers with
  | error fault => simp [settle, CarrierSystem.makeLoop, bind, Except.bind, inService]
  | ok _ =>
      obtain ⟨yarns, fed, made, _⟩ := makeLoop_succeeds inService
      rw [settle, made]
      exact mapM_feed (makeLoop_eq_ok.mp made).2

end Writing

end CarrierSystem

def Move.write : Move → EStateM Fault CarrierSystem Unit
  | bringIn id => CarrierSystem.Writing.bringIn id
  | inhook id => CarrierSystem.Writing.inhook id
  | releasehook id => CarrierSystem.Writing.releasehook id
  | out id => CarrierSystem.Writing.out id
  | outhook id => CarrierSystem.Writing.outhook id
  | makeLoop carriers => do
      let _ ← CarrierSystem.Writing.makeLoop carriers

theorem Move.write_eq (move : Move) : move.write = settleUnit move.act := by
  cases move with
  | bringIn id => exact CarrierSystem.Writing.bringIn_eq id
  | inhook id => exact CarrierSystem.Writing.inhook_eq id
  | releasehook id => exact CarrierSystem.Writing.releasehook_eq id
  | out id => exact CarrierSystem.Writing.out_eq id
  | outhook id => exact CarrierSystem.Writing.outhook_eq id
  | makeLoop carriers =>
      funext system
      rw [write, CarrierSystem.Writing.makeLoop_eq, settleUnit_run, act]
      simp only [bind, EStateM.bind, settle]
      cases system.makeLoop carriers <;> rfl

/-- A move that is refused at any of its checks has written nothing. -/
theorem Move.write_run (move : Move) (system : CarrierSystem) :
    move.write system =
      match move.act system with
      | .ok next => .ok () next
      | .error fault => .error fault system := by
  rw [write_eq, settleUnit_run]
  cases move.act system <;> rfl

namespace Machine

def inCarriers {α : Type} (operation : EStateM Fault CarrierSystem α) : Action α := fun machine =>
  match operation machine.carriers with
  | .ok answer carriers => .ok answer { machine with carriers := carriers }
  | .error fault carriers => .error fault { machine with carriers := carriers }

theorem inCarriers_settle {α : Type}
    (operation : CarrierSystem → Except Fault (α × CarrierSystem)) :
    inCarriers (settle operation) = onCarriers operation := by
  funext machine
  rw [inCarriers, settle, onCarriers]
  cases operation machine.carriers <;> rfl

/-- The machine makes its moves as if they were written to its carriers one write at a time. -/
theorem inCarriers_write (move : Move) :
    inCarriers move.write = onCarriers fun carriers => return ((), ← move.act carriers) := by
  rw [move.write_eq]
  exact inCarriers_settle _

theorem inCarriers_makeLoop (carriers : CarrierSet) :
    inCarriers (CarrierSystem.Writing.makeLoop carriers) = onCarriers (·.makeLoop carriers) := by
  rw [CarrierSystem.Writing.makeLoop_eq]
  exact inCarriers_settle _

end Machine

end VBed
