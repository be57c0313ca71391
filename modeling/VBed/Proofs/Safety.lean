import VBed.Proofs.StrictReset

/-!
Every reachable machine is configured, and on a configured machine no call and no question meets a
step without a result: no index lies beyond its array, nothing is divided by zero, and no sum,
product or difference of positions and layers leaves the machine words.
-/

namespace VBed

namespace Strict

open Machine (Configured ConfiguredAt ask)

section Operations

variable {α : Type}

def emit (work : Strict Machine α) (instruction : Instruction) : Strict Machine (List Line) := do
  let _ ← work
  return [.plain instruction]

def silently (work : Strict Machine Unit) : Strict Machine (List Line) := do
  work
  return []

def emitPass (direction : Option Direction) (work : Strict Machine α)
    (instruction : Direction → Instruction) : Strict Machine (List Line) := do
  let last := (← lift get).direction
  emit work (instruction (direction.getD last))

def emitRack (work : Strict Machine Bool) (racking : Binary64) : Strict Machine (List Line) := do
  let changed ← work
  return if changed then [.plain (.rack racking)] else []

def apply : Operation → Strict Machine (List Line)
  | .bringIn carrier => emit (lift (Machine.bringIn carrier)) (.bringIn [carrier])
  | .inhook carrier => emit (lift (Machine.inhook carrier)) (.inhook [carrier])
  | .releasehook carrier => emit (lift (Machine.releasehook carrier)) (.releasehook [carrier])
  | .out carrier => emit (lift (Machine.out carrier)) (.out [carrier])
  | .outhook carrier => emit (lift (Machine.outhook carrier)) (.outhook [carrier])
  | .knit needle carriers direction =>
      emitPass direction (knit needle carriers) (.knit · needle carriers)
  | .tuck needle carriers direction =>
      emitPass direction (tuck needle carriers) (.tuck · needle carriers)
  | .split start target carriers direction =>
      emitPass direction (split start target carriers) (.split · start target carriers)
  | .drop needle => emit (drop needle) (.drop needle)
  | .xfer start target => emit (xfer start target) (.xfer start target)
  | .align front back =>
      emitRack (lift (Machine.align front back)) (Machine.rackingBetween front back)
  | .rack racking => emitRack (lift (Machine.setRacking racking)) racking
  | .switchDirection => silently (lift Machine.switchDirection)
  | .gauge number => silently (setGauge number)
  | .sheet number => silently (lift (Machine.setSheet number))
  | .setLayer position layer => silently (setLayer position layer)
  | .pushLayerBackward position layers => silently (pushLayerBackward position layers)
  | .pushLayerForward position layers => silently (pushLayerForward position layers)
  | .layerToFront position => silently (setLayer position 0)
  | .layerToBack position => silently (layerToBack position)
  | .peel number => do return (← peel number).1
  | .peelSheets sheets => peelAll sheets
  | .reset number => reset number
  | .resetSheets sheets => resetAll sheets
  | .comment text => return [.comment text]

def act : Call → Strict Machine (List Line)
  | .apply operation => apply operation
  | .record position => silently (recordPosition position)

variable {invariant : Machine → Prop} {machine : Machine} {strict : Strict Machine α}
  {work : Machine.Action α}

theorem Agrees.anyGauge {gauge : Nat} (agrees : Agrees (ConfiguredAt gauge) strict work machine) :
    Agrees Configured strict work machine :=
  agrees.weaken fun _ => ConfiguredAt.toConfigured

theorem Agrees.emit (agrees : Agrees invariant strict work machine) (instruction : Instruction) :
    Agrees invariant (emit strict instruction) (Operation.emit work instruction) machine :=
  agrees.bind fun _ _ _ kept => agrees_pure kept _

theorem Agrees.silently {strict : Strict Machine Unit} {work : Machine.Action Unit}
    (agrees : Agrees invariant strict work machine) :
    Agrees invariant (silently strict) (Operation.silently work) machine :=
  agrees.bind fun _ _ _ kept => agrees_pure kept _

theorem Agrees.emitPass (agrees : Agrees invariant strict work machine)
    (direction : Option Direction) (instruction : Direction → Instruction) :
    Agrees invariant (emitPass direction strict instruction)
      (Operation.emitPass direction work instruction) machine :=
  agrees_get (agrees_get_bind (agrees.emit _))

theorem Agrees.emitRack {strict : Strict Machine Bool} {work : Machine.Action Bool}
    (agrees : Agrees invariant strict work machine) (racking : Binary64) :
    Agrees invariant (emitRack strict racking) (Operation.emitRack work racking) machine :=
  agrees.bind fun _ _ _ kept => agrees_pure kept _

theorem agrees_switchDirection (configured : machine.Configured) :
    Agrees Configured (lift Machine.switchDirection) Machine.switchDirection machine := by
  have turned : ConfiguredAt machine.gauge
      { machine with direction := machine.direction.opposite } :=
    configured.current.of_undisturbed ⟨rfl, rfl, rfl, rfl, rfl, rfl⟩ rfl rfl rfl configured.racked
  exact agrees_lift turned.toConfigured

theorem agrees_apply (configured : machine.Configured) (operation : Operation) :
    Agrees Configured (apply operation) operation.apply machine := by
  have current := configured.current
  have carried := fun work : CarrierSystem → Except Fault CarrierSystem =>
    (agrees_onCarriers current fun carriers => return ((), ← work carriers)).anyGauge
  cases operation with
  | bringIn carrier => exact (carried (·.bringIn carrier)).emit _
  | inhook carrier => exact (carried (·.inhook carrier)).emit _
  | releasehook carrier => exact (carried (·.releasehook carrier)).emit _
  | out carrier => exact (carried (·.out carrier)).emit _
  | outhook carrier => exact (carried (·.outhook carrier)).emit _
  | knit needle carriers direction =>
      exact (agrees_knit current needle carriers).anyGauge.emitPass direction
        (.knit · needle carriers)
  | tuck needle carriers direction =>
      exact (agrees_tuck current needle carriers).anyGauge.emitPass direction
        (.tuck · needle carriers)
  | split start target carriers direction =>
      exact (agrees_split current start target carriers).anyGauge.emitPass direction
        (.split · start target carriers)
  | drop needle => exact (agrees_drop current needle).anyGauge.emit _
  | xfer start target => exact (agrees_xfer current start target).anyGauge.emit _
  | align front back => exact (agrees_setRacking current _).anyGauge.emitRack _
  | rack racking => exact (agrees_setRacking current racking).anyGauge.emitRack racking
  | switchDirection => exact (agrees_switchDirection configured).silently
  | gauge number => exact (agrees_setGauge configured number).silently
  | sheet number => exact (agrees_setSheet configured number).silently
  | setLayer position layer => exact (agrees_setLayer configured position layer).silently
  | pushLayerBackward position layers =>
      exact (agrees_pushLayerBackward configured position layers).silently
  | pushLayerForward position layers =>
      exact (agrees_pushLayerForward configured position layers).silently
  | layerToFront position => exact (agrees_setLayer configured position 0).silently
  | layerToBack position => exact (agrees_layerToBack configured position).silently
  | peel number =>
      exact (agrees_peel current number).anyGauge.bind fun _ _ _ kept => agrees_pure kept _
  | peelSheets sheets => exact (agrees_peelAll current sheets).anyGauge
  | reset number => exact (agrees_reset current number).anyGauge
  | resetSheets sheets => exact (agrees_resetAll current sheets).anyGauge
  | comment text => exact agrees_pure configured _

theorem agrees_act (configured : machine.Configured) (call : Call) :
    Agrees Configured (act call) call.act machine := by
  cases call with
  | apply operation => exact agrees_apply configured operation
  | record position =>
      exact (agrees_recordPosition configured.current position).anyGauge.silently

end Operations

end Strict

namespace Machine

variable {machine : Machine}

theorem Reachable.configured (reachable : machine.Reachable) : machine.Configured := by
  induction reachable with
  | start word empty =>
      obtain ⟨valid, rfl⟩ := of_eq_ok.mp empty
      exact configured_initial valid word
  | step _ call ih => exact (Strict.agrees_act ih call).keeps

/-- With all their steps checked the calls and the questions run as they do. -/
structure Safe (machine : Machine) : Prop where
  calls : ∀ call : Call, Strict.act call machine = some (call.act machine)
  sheetOf : ∀ position,
    Strict.sheetOf position machine = some (.ok (machine.sheetOf position) machine)
  layerAt : ∀ position,
    Strict.layerAt position machine = some (ask (·.layerAt position) machine)
  recordAt : ∀ position,
    Strict.recordAt position machine = some (ask (·.recordAt position) machine)
  sheetNeedleCount : ∀ gauge,
    Strict.sheetNeedleCount gauge machine = some (ask (·.sheetNeedleCount gauge) machine)
  sheetNeedle : ∀ needle,
    Strict.ofNeedle needle machine.gauge = some (SheetNeedle.ofNeedle needle machine.gauge)
  needleSet : ∀ set scope,
    Strict.needleSet set scope machine = some (ask (·.needleSet set scope) machine)
  current : ∀ set, ∃ needles, machine.needleSet set .current = .ok needles

theorem Configured.safe (configured : machine.Configured) : machine.Safe where
  calls call := (Strict.agrees_act configured call).runs
  sheetOf position := (Strict.agrees_sheetOf configured position).runs
  layerAt position := (Strict.agrees_layerAt configured position).runs
  recordAt position := (Strict.agrees_recordAt configured position).runs
  sheetNeedleCount gauge := (Strict.agrees_sheetNeedleCount configured gauge).runs
  sheetNeedle needle := Strict.ofNeedle_eq needle machine.gauge
  needleSet set scope := (Strict.agrees_needleSet configured set scope).runs
  current set := Strict.needleSet_current configured set

example : Strict.sheetOf 0 { initial twoNeedles with gauge := 0 } = none ∧
    Strict.setLayer 1 0 { initial twoNeedles with layers := #[0] } = none :=
  ⟨rfl, by decide +kernel⟩

theorem configured_safe_of_reachable (reachable : machine.Reachable) :
    machine.Configured ∧ machine.Safe :=
  ⟨reachable.configured, reachable.configured.safe⟩

theorem configured_safe_relayered :
    let relayered := (initial twoNeedles).afterAll [.apply (.gauge 2), .apply (.sheet 1),
      .apply (.pushLayerForward 1 (-1)), .record 0]
    relayered.gauge = 2 ∧ relayered.sheet = 1 ∧ relayered.layers = #[0, 0] ∧
      relayered.Configured ∧ relayered.Safe :=
  ⟨by decide +kernel, by decide +kernel, by decide +kernel,
    configured_safe_of_reachable (reachable_twoNeedles _)⟩

end Machine

end VBed
