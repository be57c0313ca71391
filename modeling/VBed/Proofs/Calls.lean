import VBed.Program
import VBed.Proofs.Peeling

/-!
Calls, the states they lead to, and what each call does. `Call.effect` is the one place where the
operations are taken apart: an operation is refused and leaves the machine as it was, or it has
the effect that its constructor of `Effect` writes out. Every invariant of the reachable states
follows from it by cases.
-/

namespace VBed

namespace Operation

def carrierWork? :
    Operation → Option ((CarrierSystem → Except Fault CarrierSystem) × Instruction)
  | bringIn carrier => some ((·.bringIn carrier), .bringIn [carrier])
  | inhook carrier => some ((·.inhook carrier), .inhook [carrier])
  | releasehook carrier => some ((·.releasehook carrier), .releasehook [carrier])
  | out carrier => some ((·.out carrier), .out [carrier])
  | outhook carrier => some ((·.outhook carrier), .outhook [carrier])
  | _ => none

def racking? : Operation → Option Binary64
  | align front back => some (Machine.rackingBetween front back)
  | rack racking => some racking
  | _ => none

def isSilent : Operation → Bool
  | switchDirection => true
  | sheet _ => true
  | setLayer _ _ => true
  | pushLayerBackward _ _ => true
  | pushLayerForward _ _ => true
  | layerToFront _ => true
  | layerToBack _ => true
  | comment _ => true
  | _ => false

end Operation

def Line.instructions (lines : List Line) : List Instruction :=
  lines.filterMap Line.instruction?

/-- A change that a caller can ask of a machine: an operation of a program, or putting the
presence of loops at a position on record. -/
inductive Call where
  | apply (operation : Operation)
  | record (position : Nat)
deriving DecidableEq

namespace Call

def act : Call → Machine.Action (List Line)
  | apply operation => operation.apply
  | record position => Operation.silently (Machine.recordPosition position)

def after (call : Call) (machine : Machine) : Machine :=
  finalState (call.act machine)

def Peels (machine : Machine) (plan : Machine.PeelPlan) : Call → Prop
  | apply (.peel sheet) => machine.peelPlan sheet = .ok plan
  | apply (.peelSheets sheets) => machine.peelPlanAll sheets = .ok plan
  | _ => False

def Resets (machine : Machine) (plan : Machine.PeelPlan) (chosen : Nat → Bool) : Call → Prop
  | apply (.reset sheet) =>
      machine.peelPlan sheet = .ok plan ∧
        chosen = fun position =>
          machine.sheetOf position == sheet || plan.sameLayer.contains position
  | apply (.resetSheets sheets) =>
      machine.peelPlanAll sheets = .ok plan ∧
        chosen = fun position => sheets.contains (machine.sheetOf position)
  | _ => False

end Call

namespace Machine

def afterAll (machine : Machine) (calls : List Call) : Machine :=
  calls.foldl (fun current call => call.after current) machine

/-- The states that calls lead to from an empty machine whose needles are counted by a machine
word. -/
inductive Reachable : Machine → Prop
  | start {spec : Spec} {machine : Machine} (word : spec.needleCount < Text.wordCount)
      (empty : Machine.of spec = .ok machine) : Reachable machine
  | step {machine : Machine} (before : Reachable machine) (call : Call) :
      Reachable (call.after machine)

theorem Reachable.afterAll {machine : Machine} (reachable : Reachable machine)
    (calls : List Call) : Reachable (machine.afterAll calls) := by
  induction calls generalizing machine with
  | nil => exact reachable
  | cons call rest ih => exact ih (reachable.step call)

def twoNeedles : Spec := ⟨2, .zero, 1, 1⟩

theorem reachable_twoNeedles (calls : List Call) :
    ((initial twoNeedles).afterAll calls).Reachable :=
  (Reachable.start (by decide) (rfl : Machine.of twoNeedles = .ok _)).afterAll calls

def regauged (machine : Machine) (number : Nat) : Machine :=
  if number = machine.gauge then machine
  else
    { machine with
      gauge := number
      layers := machine.layers.mapIdx fun position _ => position % number
      sheet := if machine.sheet < number then machine.sheet else 0 }

structure Retuned (machine next : Machine) : Prop extends Undisturbed machine next where
  gauge : next.gauge = machine.gauge

structure Unseen (machine next : Machine) : Prop extends Retuned machine next where
  racking : next.racking = machine.racking
  carriers : next.carriers = machine.carriers

theorem Unseen.refl (machine : Machine) : machine.Unseen machine :=
  ⟨⟨Undisturbed.refl machine, rfl⟩, rfl, rfl⟩

inductive Tuning (machine : Machine) : Operation → List Line → Machine → Prop
  | unseen {operation : Operation} {lines : List Line} {next : Machine}
      (silent : operation.isSilent = true) (bare : Line.instructions lines = [])
      (same : machine.Unseen next) : Tuning machine operation lines next
  | racked {operation : Operation} {racking : Binary64}
      (racks : operation.racking? = some racking)
      (checked : machine.checkRacking racking = .ok ()) :
      Tuning machine operation (machine.rackLines racking) { machine with racking := racking }
  | carried {operation : Operation} {work : CarrierSystem → Except Fault CarrierSystem}
      {instruction : Instruction} {carriers : CarrierSystem}
      (moves : operation.carrierWork? = some (work, instruction))
      (ran : work machine.carriers = .ok carriers) :
      Tuning machine operation [.plain instruction] { machine with carriers := carriers }

theorem Tuning.retuned {machine next : Machine} {operation : Operation} {lines : List Line}
    (tuning : Tuning machine operation lines next) : machine.Retuned next := by
  cases tuning with
  | unseen _ _ same => exact same.toRetuned
  | racked _ _ => exact ⟨⟨rfl, rfl, rfl, rfl, rfl, rfl⟩, rfl⟩
  | carried _ _ => exact ⟨⟨rfl, rfl, rfl, rfl, rfl, rfl⟩, rfl⟩

inductive Effect (machine : Machine) : Call → List Line → Machine → Prop
  | retuned {operation : Operation} {lines : List Line} {next : Machine}
      (tuning : Tuning machine operation lines next) :
      Effect machine (.apply operation) lines next
  | regauged {number : Nat} (checked : machine.checkEvenGauge number = .ok ()) :
      Effect machine (.apply (.gauge number)) [] (machine.regauged number)
  | recorded {position : Nat} (inRange : position < machine.needleCount) :
      Effect machine (.record position) [] (machine.recorded position)
  | knitted {needle : Needle} {carriers : CarrierSet} {direction : Option Direction}
      {yarns : List Yarn} {fed : CarrierSystem}
      (checked : machine.checkMaking .knit needle carriers = .ok ())
      (feeds : machine.carriers.makeLoop carriers = .ok (yarns, fed)) :
      Effect machine (.apply (.knit needle carriers direction))
        [.plain (.knit (direction.getD machine.direction) needle carriers)]
        ((machine.made needle fed yarns [] (machine.loops needle)).recorded needle.position)
  | tucked {needle : Needle} {carriers : CarrierSet} {direction : Option Direction}
      {yarns : List Yarn} {fed : CarrierSystem}
      (checked : machine.checkMaking .tuck needle carriers = .ok ())
      (feeds : machine.carriers.makeLoop carriers = .ok (yarns, fed)) :
      Effect machine (.apply (.tuck needle carriers direction))
        [.plain (.tuck (direction.getD machine.direction) needle carriers)]
        ((machine.made needle fed yarns (machine.loops needle) []).recorded needle.position)
  | splitted {start target : Needle} {carriers : CarrierSet} {direction : Option Direction}
      {yarns : List Yarn} {fed : CarrierSystem}
      (checked : machine.checkSplit start target carriers = .ok ())
      (feeds : machine.carriers.makeLoop carriers = .ok (yarns, fed)) :
      Effect machine (.apply (.split start target carriers direction))
        [.plain (.split (direction.getD machine.direction) start target carriers)]
        (((machine.transferred start target).made start fed yarns [] []).recorded start.position)
  | dropped {needle : Needle} (checked : machine.checkWork .drop needle = .ok ()) :
      Effect machine (.apply (.drop needle)) [.plain (.drop needle)]
        ((machine.put needle []).recorded needle.position)
  | transferred {start target : Needle} (checked : machine.checkTransfer start target = .ok ()) :
      Effect machine (.apply (.xfer start target)) [.plain (.xfer start target)]
        (machine.transferred start target)
  | peeled {call : Call} {plan : PeelPlan} {sheets : List Nat} {active : String}
      (peels : call.Peels machine plan) (fits : plan.Fits machine sheets)
      (checked : machine.checkCrossings (plan.ordered machine) = .ok ()) :
      Effect machine call (machine.peelLines plan plan.moves active)
        ((machine.straightened plan.moves).crossed (plan.ordered machine))
  | restored {call : Call} {plan : PeelPlan} {sheets : List Nat} {active : String}
      {chosen : Nat → Bool} {returns : List Needle} (resets : call.Resets machine plan chosen)
      (fits : plan.Fits machine sheets) (planned : machine.returnPlan plan chosen = .ok returns)
      (checked : machine.checkCrossings (plan.ordered machine ++ returns) = .ok ()) :
      Effect machine call (machine.resetLines plan returns active)
        (machine.restored plan returns)

inductive Outcome (machine : Machine) (call : Call) :
    EStateM.Result Fault Machine (List Line) → Prop
  | refused (fault : Fault) : Outcome machine call (.error fault machine)
  | done {lines : List Line} {next : Machine} (effect : Effect machine call lines next) :
      Outcome machine call (.ok lines next)

/-- The operation is refused with the machine unchanged, or changes nothing that is seen. -/
def Hides {α : Type} (action : Action α) : Prop :=
  ∀ machine, (∃ fault, action machine = .error fault machine) ∨
    ∃ answer next, action machine = .ok answer next ∧ machine.Unseen next

section Hiding

variable {α β : Type}

theorem hides_ask_bind {query : Machine → Except Fault α} {second : α → Action β}
    (hides : ∀ answer, Hides (second answer)) : Hides (ask query >>= second) := by
  intro machine
  cases asked : query machine with
  | error fault => exact Or.inl ⟨fault, run_bind_error (ask_error asked)⟩
  | ok answer =>
      rw [run_bind_ok (ask_ok asked)]
      exact hides answer machine

theorem hides_get_bind {second : Machine → Action β}
    (hides : ∀ machine, Hides (second machine)) : Hides (get >>= second) :=
  fun machine => hides machine machine

theorem hides_pure (value : α) : Hides (pure value) :=
  fun machine => Or.inr ⟨value, machine, rfl, Unseen.refl machine⟩

theorem hides_modify {change : Machine → Machine}
    (same : ∀ machine : Machine, machine.Unseen (change machine)) : Hides (modify change) :=
  fun machine => Or.inr ⟨(), change machine, rfl, same machine⟩

theorem hides_switchDirection : Hides switchDirection :=
  hides_modify fun _ => ⟨⟨⟨rfl, rfl, rfl, rfl, rfl, rfl⟩, rfl⟩, rfl, rfl⟩

theorem hides_setSheet (sheet : Nat) : Hides (setSheet sheet) :=
  hides_ask_bind fun _ => hides_modify fun _ =>
    ⟨⟨⟨rfl, rfl, rfl, rfl, rfl, rfl⟩, rfl⟩, rfl, rfl⟩

theorem hides_setLayer (position layer : Nat) : Hides (setLayer position layer) :=
  hides_ask_bind fun _ => hides_modify fun _ =>
    ⟨⟨⟨rfl, rfl, rfl, rfl, rfl, Array.size_setIfInBounds⟩, rfl⟩, rfl, rfl⟩

theorem hides_shiftLayer (position shift : Nat) : Hides (shiftLayer position shift) := by
  refine hides_ask_bind fun layer => ?_
  split
  · exact hides_get_bind fun machine => hides_setLayer position _
  · exact hides_pure ()

theorem hides_pushLayerBackward (position : Nat) (layers : Int) :
    Hides (pushLayerBackward position layers) :=
  hides_get_bind fun _ => hides_shiftLayer position _

theorem hides_pushLayerForward (position : Nat) (layers : Int) :
    Hides (pushLayerForward position layers) :=
  hides_get_bind fun _ => hides_shiftLayer position _

theorem hides_layerToBack (position : Nat) : Hides (layerToBack position) :=
  hides_get_bind fun _ => hides_setLayer position _

end Hiding

section Outcomes

variable {machine : Machine} {α : Type}

theorem hidden_outcome {operation : Operation} (silent : operation.isSilent = true)
    {work : Action Unit} (hides : Hides work) :
    Outcome machine (.apply operation) (Operation.silently work machine) := by
  rcases hides machine with ⟨fault, failed⟩ | ⟨answer, next, ran, same⟩
  · rw [Operation.silently, run_bind_error failed]
    exact .refused fault
  · rw [Operation.silently, run_bind_ok ran]
    exact .done (Effect.retuned (.unseen silent rfl same))

theorem racked_outcome {operation : Operation} {racking : Binary64}
    (racks : operation.racking? = some racking) :
    Outcome machine (.apply operation)
      (Operation.emitRack (setRacking racking) racking machine) := by
  cases checked : machine.checkRacking racking with
  | error fault =>
      have failed : setRacking racking machine = .error fault machine :=
        run_bind_error (ask_error checked)
      rw [Operation.emitRack, run_bind_error failed]
      exact .refused fault
  | ok passed =>
      rw [Operation.emitRack, run_bind_ok (setRacking_done checked)]
      exact .done (Effect.retuned (.racked racks checked))

theorem outcome_emit_refused {call : Call} {work : Action α} {instruction : Instruction}
    {fault : Fault} (failed : work machine = .error fault machine) :
    Outcome machine call (Operation.emit work instruction machine) := by
  rw [Operation.emit, run_bind_error failed]
  exact .refused fault

theorem outcome_emit_done {call : Call} {work : Action α} {instruction : Instruction}
    {answer : α} {next : Machine} (ran : work machine = .ok answer next)
    (effect : Effect machine call [.plain instruction] next) :
    Outcome machine call (Operation.emit work instruction machine) := by
  rw [Operation.emit, run_bind_ok ran]
  exact .done effect

theorem carried_outcome {operation : Operation}
    {work : CarrierSystem → Except Fault CarrierSystem} {instruction : Instruction}
    (moves : operation.carrierWork? = some (work, instruction)) :
    Outcome machine (.apply operation)
      (Operation.emit (onCarriers fun carriers => return ((), ← work carriers)) instruction
        machine) := by
  cases ran : work machine.carriers with
  | error fault =>
      have failed : onCarriers (fun carriers => return ((), ← work carriers)) machine =
          .error fault machine := by
        simp only [onCarriers, ran]
        rfl
      exact outcome_emit_refused failed
  | ok carriers =>
      have succeeded : onCarriers (fun carriers => return ((), ← work carriers)) machine =
          .ok () { machine with carriers := carriers } := by
        simp only [onCarriers, ran]
        rfl
      exact outcome_emit_done succeeded (Effect.retuned (.carried moves ran))

theorem regauged_undisturbed (machine : Machine) (number : Nat) :
    machine.Undisturbed (machine.regauged number) := by
  rw [regauged]
  split
  · exact Undisturbed.refl machine
  · exact ⟨rfl, rfl, rfl, rfl, rfl, Array.size_mapIdx⟩

theorem gauge_regauged (machine : Machine) (number : Nat) :
    (machine.regauged number).gauge = number := by
  rw [regauged]
  split
  · rename_i same
    exact same.symm
  · rfl

theorem gauge_outcome (number : Nat) :
    Outcome machine (.apply (.gauge number)) (Operation.silently (setGauge number) machine) := by
  cases checked : machine.checkEvenGauge number with
  | error fault =>
      have failed : setGauge number machine = .error fault machine :=
        run_bind_error (ask_error checked)
      rw [Operation.silently, run_bind_error failed]
      exact .refused fault
  | ok passed =>
      have ran : setGauge number machine = .ok () (machine.regauged number) := by
        rw [setGauge, run_bind_ok (ask_ok checked)]
        rfl
      rw [Operation.silently, run_bind_ok ran]
      exact .done (Effect.regauged checked)

theorem knit_outcome (shaped : machine.Shaped) (known : machine.Known) (needle : Needle)
    (carriers : CarrierSet) (direction : Option Direction) :
    Outcome machine (.apply (.knit needle carriers direction))
      (Operation.apply (.knit needle carriers direction) machine) := by
  change Outcome machine _ (Operation.emit (knit needle carriers) _ machine)
  cases checked : machine.checkMaking .knit needle carriers with
  | error fault => exact outcome_emit_refused (run_bind_error (ask_error checked))
  | ok passed =>
      obtain ⟨yarns, fed, feeds, _, ran⟩ := knit_done shaped known checked
      exact outcome_emit_done ran (Effect.knitted checked feeds)

theorem tuck_outcome (shaped : machine.Shaped) (needle : Needle)
    (carriers : CarrierSet) (direction : Option Direction) :
    Outcome machine (.apply (.tuck needle carriers direction))
      (Operation.apply (.tuck needle carriers direction) machine) := by
  change Outcome machine _ (Operation.emit (tuck needle carriers) _ machine)
  cases checked : machine.checkMaking .tuck needle carriers with
  | error fault => exact outcome_emit_refused (run_bind_error (ask_error checked))
  | ok passed =>
      obtain ⟨yarns, fed, feeds, _, ran⟩ := tuck_done shaped checked
      exact outcome_emit_done ran (Effect.tucked checked feeds)

theorem split_outcome (shaped : machine.Shaped) (known : machine.Known) (start target : Needle)
    (carriers : CarrierSet) (direction : Option Direction) :
    Outcome machine (.apply (.split start target carriers direction))
      (Operation.apply (.split start target carriers direction) machine) := by
  change Outcome machine _ (Operation.emit (split start target carriers) _ machine)
  cases checked : machine.checkSplit start target carriers with
  | error fault => exact outcome_emit_refused (run_bind_error (ask_error checked))
  | ok passed =>
      obtain ⟨yarns, fed, feeds, _, ran⟩ := split_done shaped known checked
      exact outcome_emit_done ran (Effect.splitted checked feeds)

theorem drop_outcome (shaped : machine.Shaped) (needle : Needle) :
    Outcome machine (.apply (.drop needle)) (Operation.apply (.drop needle) machine) := by
  change Outcome machine _ (Operation.emit (drop needle) _ machine)
  cases checked : machine.checkWork .drop needle with
  | error fault => exact outcome_emit_refused (run_bind_error (ask_error checked))
  | ok passed => exact outcome_emit_done (drop_done shaped checked) (Effect.dropped checked)

theorem xfer_outcome (shaped : machine.Shaped) (start target : Needle) :
    Outcome machine (.apply (.xfer start target))
      (Operation.apply (.xfer start target) machine) := by
  change Outcome machine _ (Operation.emit (xfer start target) _ machine)
  cases checked : machine.checkTransfer start target with
  | error fault =>
      have refused : shift start target machine = .error fault machine :=
        run_bind_error (ask_error checked)
      exact outcome_emit_refused (run_bind_error refused)
  | ok passed => exact outcome_emit_done (xfer_done shaped checked) (Effect.transferred checked)

theorem record_outcome (shaped : machine.Shaped) (position : Nat) :
    Outcome machine (.record position) (Call.act (.record position) machine) := by
  change Outcome machine _ (Operation.silently (recordPosition position) machine)
  by_cases inRange : position < machine.needleCount
  · rw [Operation.silently, run_bind_ok (recordPosition_done shaped position inRange)]
    exact .done (Effect.recorded inRange)
  · obtain ⟨fault, failed⟩ := recordPosition_refused shaped inRange
    rw [Operation.silently, run_bind_error failed]
    exact .refused fault

theorem peel_outcome (shaped : machine.Shaped) (sheet : Nat) :
    Outcome machine (.apply (.peel sheet)) (Operation.apply (.peel sheet) machine) := by
  change Outcome machine _ ((peel sheet >>= fun answer => pure answer.1) machine)
  cases planned : machine.peelPlan sheet with
  | error fault =>
      have failed : peel sheet machine = .error fault machine :=
        run_bind_error (ask_error planned)
      rw [run_bind_error failed]
      exact .refused fault
  | ok plan =>
      have fits := peelPlan_fits planned
      rcases peelBy_run shaped fits (Text.decimal sheet) with ⟨fault, _, failed⟩ | ⟨checked, ran⟩
      · have failed : peel sheet machine = .error fault machine := by
          rw [peel, run_bind_ok (ask_ok planned), run_bind_error failed]
        rw [run_bind_error failed]
        exact .refused fault
      · have ran : peel sheet machine =
            .ok (machine.peelLines plan plan.moves (Text.decimal sheet), plan.sameLayer)
              ((machine.straightened plan.moves).crossed (plan.ordered machine)) := by
          rw [peel, run_bind_ok (ask_ok planned), run_bind_ok ran]
          rfl
        rw [run_bind_ok ran]
        exact .done (Effect.peeled planned fits checked)

theorem peelSheets_outcome (shaped : machine.Shaped) (sheets : List Nat) :
    Outcome machine (.apply (.peelSheets sheets)) (peelAll sheets machine) := by
  cases planned : machine.peelPlanAll sheets with
  | error fault =>
      rw [peelAll, run_bind_error (ask_error planned)]
      exact .refused fault
  | ok plan =>
      have fits := peelPlanAll_fits planned
      rw [peelAll, run_bind_ok (ask_ok planned)]
      rcases peelBy_run shaped fits (Text.bracketed sheets) with
        ⟨fault, _, failed⟩ | ⟨checked, ran⟩
      · rw [failed]
        exact .refused fault
      · rw [ran]
        exact .done (Effect.peeled planned fits checked)

theorem resetBy_outcome (shaped : machine.Shaped) {call : Call} {plan : PeelPlan}
    {sheets : List Nat} {chosen : Nat → Bool} (resets : call.Resets machine plan chosen)
    (fits : plan.Fits machine sheets) (active : String) :
    Outcome machine call (resetBy plan active chosen machine) := by
  rcases resetBy_run shaped fits active chosen with
    ⟨fault, failed, _⟩ | ⟨returns, planned, checked, ran⟩
  · rw [failed]
    exact .refused fault
  · rw [ran]
    exact .done (Effect.restored resets fits planned checked)

theorem reset_outcome (shaped : machine.Shaped) (sheet : Nat) :
    Outcome machine (.apply (.reset sheet)) (reset sheet machine) := by
  rw [reset, run_get_bind]
  cases planned : machine.peelPlan sheet with
  | error fault =>
      rw [run_bind_error (ask_error planned)]
      exact .refused fault
  | ok plan =>
      have resets : Call.Resets machine plan (fun position =>
          machine.sheetOf position == sheet || plan.sameLayer.contains position)
          (.apply (.reset sheet)) := ⟨planned, rfl⟩
      rw [run_bind_ok (ask_ok planned)]
      exact resetBy_outcome shaped resets (peelPlan_fits planned) (Text.decimal sheet)

theorem resetSheets_outcome (shaped : machine.Shaped) (sheets : List Nat) :
    Outcome machine (.apply (.resetSheets sheets)) (resetAll sheets machine) := by
  rw [resetAll, run_get_bind]
  cases planned : machine.peelPlanAll sheets with
  | error fault =>
      rw [run_bind_error (ask_error planned)]
      exact .refused fault
  | ok plan =>
      have resets : Call.Resets machine plan
          (fun position => sheets.contains (machine.sheetOf position))
          (.apply (.resetSheets sheets)) := ⟨planned, rfl⟩
      rw [run_bind_ok (ask_ok planned)]
      exact resetBy_outcome shaped resets (peelPlanAll_fits planned) (Text.bracketed sheets)

/-- Every call is refused and changes nothing, or has its effect. -/
theorem outcome (machine : Machine) (shaped : machine.Shaped) (known : machine.Known)
    (call : Call) :
    Outcome machine call (call.act machine) := by
  cases call with
  | record position => exact record_outcome shaped position
  | apply operation =>
      cases operation with
      | bringIn carrier => exact carried_outcome rfl
      | inhook carrier => exact carried_outcome rfl
      | releasehook carrier => exact carried_outcome rfl
      | out carrier => exact carried_outcome rfl
      | outhook carrier => exact carried_outcome rfl
      | knit needle carriers direction => exact knit_outcome shaped known needle carriers direction
      | tuck needle carriers direction => exact tuck_outcome shaped needle carriers direction
      | split start target carriers direction =>
          exact split_outcome shaped known start target carriers direction
      | drop needle => exact drop_outcome shaped needle
      | xfer start target => exact xfer_outcome shaped start target
      | align front back => exact racked_outcome rfl
      | rack racking => exact racked_outcome rfl
      | switchDirection => exact hidden_outcome rfl hides_switchDirection
      | gauge number => exact gauge_outcome number
      | sheet number => exact hidden_outcome rfl (hides_setSheet number)
      | setLayer position layer => exact hidden_outcome rfl (hides_setLayer position layer)
      | pushLayerBackward position layers =>
          exact hidden_outcome rfl (hides_pushLayerBackward position layers)
      | pushLayerForward position layers =>
          exact hidden_outcome rfl (hides_pushLayerForward position layers)
      | layerToFront position => exact hidden_outcome rfl (hides_setLayer position 0)
      | layerToBack position => exact hidden_outcome rfl (hides_layerToBack position)
      | peel sheet => exact peel_outcome shaped sheet
      | peelSheets sheets => exact peelSheets_outcome shaped sheets
      | reset sheet => exact reset_outcome shaped sheet
      | resetSheets sheets => exact resetSheets_outcome shaped sheets
      | comment text => exact .done (Effect.retuned (.unseen rfl rfl (Unseen.refl machine)))

theorem effect_of_ok (shaped : machine.Shaped) (known : machine.Known) {call : Call}
    {lines : List Line} {next : Machine} (ran : call.act machine = .ok lines next) :
    Effect machine call lines next := by
  have outcome := machine.outcome shaped known call
  rw [ran] at outcome
  cases outcome with
  | done effect => exact effect

theorem same_of_error (shaped : machine.Shaped) (known : machine.Known) {call : Call}
    {fault : Fault} {next : Machine} (refused : call.act machine = .error fault next) :
    next = machine := by
  have outcome := machine.outcome shaped known call
  rw [refused] at outcome
  cases outcome
  rfl

theorem after_of_act {call : Call} {lines : List Line} {next : Machine}
    (ran : call.act machine = .ok lines next) : call.after machine = next := by
  rw [Call.after, ran]
  rfl

/-- After a call the machine is as before, or as the effect of the call leaves it. -/
theorem after_cases (shaped : machine.Shaped) (known : machine.Known) (call : Call) :
    call.after machine = machine ∨ ∃ lines, Effect machine call lines (call.after machine) := by
  have outcome := machine.outcome shaped known call
  rw [Call.after]
  generalize call.act machine = result at outcome
  cases outcome with
  | refused fault => exact Or.inl rfl
  | done effect => exact Or.inr ⟨_, effect⟩

end Outcomes

end Machine

end VBed
