import VBed.Proofs.Calls

/-!
The checks of calls, and what they cannot find. `Call.check` collects what each call checks before
it changes anything. None of these checks looks a loop up in the graph, so that none meets a loop
that was never made.
-/

namespace VBed

namespace Machine

def checkLayer (machine : Machine) (position layer : Nat) : Except Fault Unit := do
  machine.checkPosition position
  if machine.gauge ≤ layer then throw (.layerOutOfRange layer machine.gauge)

def checkReset (machine : Machine) (plan : PeelPlan) (chosen : Nat → Bool) :
    Except Fault Unit := do
  let returns ← machine.returnPlan plan chosen
  machine.checkCrossings (plan.ordered machine ++ returns)

end Machine

def Operation.check (machine : Machine) : Operation → Except Fault Unit
  | bringIn carrier => discard (machine.carriers.bringIn carrier)
  | inhook carrier => discard (machine.carriers.inhook carrier)
  | releasehook carrier => discard (machine.carriers.releasehook carrier)
  | out carrier => discard (machine.carriers.out carrier)
  | outhook carrier => discard (machine.carriers.outhook carrier)
  | knit needle carriers _ => machine.checkMaking .knit needle carriers
  | tuck needle carriers _ => machine.checkMaking .tuck needle carriers
  | split start target carriers _ => machine.checkSplit start target carriers
  | drop needle => machine.checkWork .drop needle
  | xfer start target => machine.checkTransfer start target
  | align front back => machine.checkRacking (Machine.rackingBetween front back)
  | rack racking => machine.checkRacking racking
  | switchDirection => .ok ()
  | gauge number => machine.checkEvenGauge number
  | sheet number => checkSheet number machine.gauge
  | setLayer position layer => machine.checkLayer position layer
  | pushLayerBackward position _ => machine.checkPosition position
  | pushLayerForward position _ => machine.checkPosition position
  | layerToFront position => machine.checkPosition position
  | layerToBack position => machine.checkPosition position
  | peel number => do
      let plan ← machine.peelPlan number
      machine.checkCrossings (plan.ordered machine)
  | peelSheets sheets => do
      let plan ← machine.peelPlanAll sheets
      machine.checkCrossings (plan.ordered machine)
  | reset number => do
      let plan ← machine.peelPlan number
      machine.checkReset plan fun position =>
        machine.sheetOf position == number || plan.sameLayer.contains position
  | resetSheets sheets => do
      let plan ← machine.peelPlanAll sheets
      machine.checkReset plan fun position => sheets.contains (machine.sheetOf position)
  | comment _ => .ok ()

def Call.check (machine : Machine) : Call → Except Fault Unit
  | apply operation => operation.check machine
  | record position => discard (machine.presenceAt position)

def KnowsLoops {α : Type} (check : Except Fault α) : Prop :=
  ∀ loop, check ≠ .error (.unknownLoop loop)

section Knowing

variable {α β : Type}

theorem knows_ok (value : α) : KnowsLoops (.ok value) := nofun

theorem knows_error {reason : Fault} (other : ∀ loop, reason ≠ .unknownLoop loop) :
    KnowsLoops (.error reason : Except Fault α) :=
  fun loop same => other loop (Except.error.inj same)

theorem knows_bind {first : Except Fault α} {next : α → Except Fault β} (early : KnowsLoops first)
    (late : ∀ value, KnowsLoops (next value)) : KnowsLoops (first >>= next) := by
  intro loop refused
  rcases bind_eq_error.mp refused with here | ⟨value, _, later⟩
  · exact early loop here
  · exact late value loop later

theorem knows_unless {condition : Prop} [Decidable condition] {reason : Fault}
    {rest : Except Fault α} (other : ∀ loop, reason ≠ .unknownLoop loop)
    (later : KnowsLoops rest) : KnowsLoops (if condition then throw reason else rest) := by
  split
  · exact knows_error other
  · exact later

theorem knows_guard {condition : Prop} [Decidable condition] {reason : Fault}
    (other : ∀ loop, reason ≠ .unknownLoop loop) :
    KnowsLoops (if condition then throw reason else pure ()) :=
  knows_unless other (knows_ok ())

theorem knows_forM {check : α → Except Fault Unit} (each : ∀ element, KnowsLoops (check element))
    (elements : List α) : KnowsLoops (elements.forM check) := by
  intro loop refused
  obtain ⟨element, _, here⟩ := forM_eq_error refused
  exact each element loop here

theorem knows_mapM {check : α → Except Fault β} (each : ∀ element, KnowsLoops (check element))
    (elements : List α) : KnowsLoops (elements.mapM check) := by
  intro loop refused
  obtain ⟨element, _, here⟩ := mapM_eq_error refused
  exact each element loop here

theorem code_eq_unknownLoop {fault : Fault} :
    fault.code = "UNKNOWN_LOOP" ↔ ∃ loop, fault = .unknownLoop loop := by
  cases fault <;> simp [Fault.code]

theorem knows_checkGauge (gauge : Nat) : KnowsLoops (checkGauge gauge) :=
  knows_guard nofun

theorem knows_checkSheet (sheet gauge : Nat) : KnowsLoops (checkSheet sheet gauge) :=
  knows_bind (knows_checkGauge gauge) fun _ => knows_guard nofun

end Knowing

namespace CarrierSystem

variable (system : CarrierSystem)

theorem knows_carrier (id : CarrierId) : KnowsLoops (system.carrier id) := by
  rw [CarrierSystem.carrier]
  split
  · exact knows_ok _
  · exact knows_error (by simp)

theorem knows_update (id : CarrierId) {operation : Carrier → Except Fault Carrier}
    (knows : ∀ carrier, KnowsLoops (operation carrier)) :
    KnowsLoops (system.update id operation) :=
  knows_bind (system.knows_carrier id) fun carrier => knows_bind (knows carrier) fun _ => knows_ok _

theorem knows_bringIn (id : CarrierId) : KnowsLoops (system.bringIn id) :=
  system.knows_update id fun _ => knows_unless nofun (knows_ok _)

theorem knows_releasehook (id : CarrierId) : KnowsLoops (system.releasehook id) :=
  knows_bind (system.knows_update id fun _ => knows_unless nofun (knows_ok _)) fun _ => knows_ok _

theorem knows_checkLeaving (carrier : Carrier) : KnowsLoops carrier.checkLeaving :=
  knows_unless nofun (knows_guard nofun)

theorem knows_out (id : CarrierId) : KnowsLoops (system.out id) :=
  system.knows_update id fun carrier => knows_bind (knows_checkLeaving carrier) fun _ => knows_ok _

theorem knows_outhook (id : CarrierId) : KnowsLoops (system.outhook id) :=
  system.knows_update id fun carrier => knows_bind (knows_checkLeaving carrier) fun _ => knows_ok _

theorem knows_inhook (id : CarrierId) : KnowsLoops (system.inhook id) := by
  refine knows_bind (system.knows_carrier id) fun carrier => knows_unless nofun ?_
  cases system.hooked with
  | some hooked => exact knows_error nofun
  | none =>
      exact knows_bind (system.knows_update id fun _ =>
        knows_unless nofun (knows_unless nofun (knows_ok _))) fun _ => knows_ok _

theorem knows_checkInService (carriers : CarrierSet) :
    KnowsLoops (system.checkInService carriers) := by
  refine knows_forM (fun id => ?_) carriers
  exact knows_bind (system.knows_carrier id) fun _ => knows_guard nofun

end CarrierSystem

namespace Machine

variable (machine : Machine)

theorem knows_loopsAt (bed : Bed) (needle : Needle) : KnowsLoops (bed.loopsAt needle) := by
  rw [Bed.loopsAt]
  split
  · exact knows_ok _
  · exact knows_error (by simp)

theorem knows_checkNeedle (needle : Needle) : KnowsLoops (machine.checkNeedle needle) :=
  knows_bind (knows_loopsAt _ needle) fun _ => knows_ok ()

theorem knows_checkPosition (position : Nat) : KnowsLoops (machine.checkPosition position) :=
  knows_guard nofun

theorem knows_checkWork (work : Work) (needle : Needle) :
    KnowsLoops (machine.checkWork work needle) :=
  knows_bind (machine.knows_checkNeedle needle) fun _ =>
    knows_unless nofun (knows_guard nofun)

theorem knows_checkMaking (work : Work) (needle : Needle) (carriers : CarrierSet) :
    KnowsLoops (machine.checkMaking work needle carriers) :=
  knows_bind (machine.knows_checkWork work needle) fun _ =>
    machine.carriers.knows_checkInService carriers

theorem knows_checkClear (needle : Needle) : KnowsLoops (machine.checkClear needle) :=
  knows_bind (knows_bind (knows_loopsAt _ needle.asSlider) fun _ => knows_ok _) fun _ =>
    knows_guard nofun

theorem knows_checkFacing (start target : Needle) :
    KnowsLoops (machine.checkFacing start target) := by
  rw [checkFacing]
  cases start.side with
  | front => exact knows_guard (by simp)
  | back => exact knows_guard (by simp)

theorem knows_checkTransfer (start target : Needle) :
    KnowsLoops (machine.checkTransfer start target) :=
  knows_bind (machine.knows_checkNeedle start) fun _ =>
    knows_bind (machine.knows_checkNeedle target) fun _ =>
      knows_unless nofun <|
        knows_bind (machine.knows_checkClear target) fun _ =>
          knows_bind (machine.knows_checkClear start) fun _ =>
            machine.knows_checkFacing start target

theorem knows_checkSplit (start target : Needle) (carriers : CarrierSet) :
    KnowsLoops (machine.checkSplit start target carriers) := by
  refine knows_bind (machine.knows_checkTransfer start target) fun _ =>
    knows_bind (machine.knows_checkMaking .split start carriers) fun _ => ?_
  exact knows_bind (knows_bind (knows_loopsAt _ start) fun _ => knows_ok _) fun _ =>
    knows_guard nofun

theorem knows_checkRacking (racking : Binary64) : KnowsLoops (machine.checkRacking racking) :=
  knows_guard nofun

theorem knows_checkEvenGauge (gauge : Nat) : KnowsLoops (machine.checkEvenGauge gauge) :=
  knows_bind (knows_checkGauge gauge) fun _ => knows_guard nofun

theorem knows_checkLayer (position layer : Nat) : KnowsLoops (machine.checkLayer position layer) :=
  knows_bind (machine.knows_checkPosition position) fun _ => knows_guard nofun

theorem knows_peelPlan (sheet : Nat) : KnowsLoops (machine.peelPlan sheet) :=
  knows_bind (knows_checkSheet sheet machine.gauge) fun _ => knows_ok _

theorem knows_checkSeparable (sheets : List Nat) (position : Nat) :
    KnowsLoops (machine.checkSeparable sheets position) :=
  knows_unless nofun (knows_guard nofun)

theorem knows_peelPlanAll (sheets : List Nat) : KnowsLoops (machine.peelPlanAll sheets) :=
  knows_unless nofun <|
    knows_bind (knows_forM (fun sheet => knows_checkSheet sheet machine.gauge) sheets) fun _ =>
      knows_bind (knows_forM (machine.knows_checkSeparable sheets) _) fun _ => knows_ok _

theorem knows_checkCrossings (needles : List Needle) :
    KnowsLoops (machine.checkCrossings needles) :=
  knows_forM (fun needle => knows_bind (machine.knows_checkClear needle) fun _ =>
    machine.knows_checkClear needle.opposite) needles

theorem knows_returnTo (home : Needle) (atHome away : Bool) :
    KnowsLoops (returnTo? home atHome away) := by
  cases atHome <;> cases away
  · exact knows_error nofun
  · exact knows_ok _
  · exact knows_ok none
  · exact knows_error nofun

theorem knows_returnStart (recorded current : Presence) (position : Nat) :
    KnowsLoops (returnStart? recorded current position) := by
  rw [returnStart?]
  split
  · split
    · exact knows_ok none
    · exact knows_error (by simp)
  · exact knows_returnTo _ _ _
  · exact knows_returnTo _ _ _
  · exact knows_ok none

theorem knows_checkReset (plan : PeelPlan) (chosen : Nat → Bool) :
    KnowsLoops (machine.checkReset plan chosen) :=
  knows_bind (knows_bind (knows_mapM (fun _ => knows_returnStart _ _ _) _) fun _ => knows_ok _)
    fun _ => machine.knows_checkCrossings _

theorem knows_check (call : Call) : KnowsLoops (call.check machine) := by
  cases call with
  | record position =>
      exact knows_bind (knows_bind (machine.knows_checkNeedle _) fun _ => knows_ok _) fun _ =>
        knows_ok ()
  | apply operation =>
      cases operation with
      | bringIn carrier =>
          exact knows_bind (machine.carriers.knows_bringIn carrier) fun _ => knows_ok ()
      | inhook carrier =>
          exact knows_bind (machine.carriers.knows_inhook carrier) fun _ => knows_ok ()
      | releasehook carrier =>
          exact knows_bind (machine.carriers.knows_releasehook carrier) fun _ => knows_ok ()
      | out carrier => exact knows_bind (machine.carriers.knows_out carrier) fun _ => knows_ok ()
      | outhook carrier =>
          exact knows_bind (machine.carriers.knows_outhook carrier) fun _ => knows_ok ()
      | knit needle carriers _ => exact machine.knows_checkMaking .knit needle carriers
      | tuck needle carriers _ => exact machine.knows_checkMaking .tuck needle carriers
      | split start target carriers _ => exact machine.knows_checkSplit start target carriers
      | drop needle => exact machine.knows_checkWork .drop needle
      | xfer start target => exact machine.knows_checkTransfer start target
      | align front back => exact machine.knows_checkRacking (rackingBetween front back)
      | rack racking => exact machine.knows_checkRacking racking
      | switchDirection => exact knows_ok ()
      | gauge number => exact machine.knows_checkEvenGauge number
      | sheet number => exact knows_checkSheet number machine.gauge
      | setLayer position layer => exact machine.knows_checkLayer position layer
      | pushLayerBackward position _ => exact machine.knows_checkPosition position
      | pushLayerForward position _ => exact machine.knows_checkPosition position
      | layerToFront position => exact machine.knows_checkPosition position
      | layerToBack position => exact machine.knows_checkPosition position
      | peel sheet =>
          exact knows_bind (machine.knows_peelPlan sheet) fun _ => machine.knows_checkCrossings _
      | peelSheets sheets =>
          exact knows_bind (machine.knows_peelPlanAll sheets) fun _ =>
            machine.knows_checkCrossings _
      | reset sheet =>
          exact knows_bind (machine.knows_peelPlan sheet) fun plan =>
            machine.knows_checkReset plan _
      | resetSheets sheets =>
          exact knows_bind (machine.knows_peelPlanAll sheets) fun plan =>
            machine.knows_checkReset plan _
      | comment _ => exact knows_ok ()

end Machine

end VBed
