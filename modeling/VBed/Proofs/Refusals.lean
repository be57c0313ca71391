import VBed.Proofs.Checks
import VBed.Proofs.Replay
import VBed.Proofs.SheetIsolation

/-!
Calls check before they change anything. The checks alone decide whether a call is refused; a
refused call leaves the machine as it was, and once the checks have passed nothing fails.
-/

namespace VBed

namespace Machine

variable {machine : Machine} {α β : Type}

/-- The checks alone decide: with their fault the machine is left as it was, and without one the
work is done. -/
inductive Decided (machine : Machine) :
    Except Fault Unit → EStateM.Result Fault Machine α → Prop
  | refused (fault : Fault) : Decided machine (.error fault) (.error fault machine)
  | done (answer : α) (next : Machine) : Decided machine (.ok ()) (.ok answer next)

section Decisions

theorem Decided.of_error {check : Except Fault Unit} {fault : Fault} {next : Machine}
    (decided : Decided machine check (.error fault next : EStateM.Result Fault Machine α)) :
    check = .error fault ∧ next = machine := by
  cases decided
  exact ⟨rfl, rfl⟩

theorem Decided.passed {check : Except Fault Unit} {result : EStateM.Result Fault Machine α}
    (decided : Decided machine check result) {answer : α} {next : Machine}
    (ran : result = .ok answer next) : check = .ok () := by
  cases decided with
  | refused fault => cases ran
  | done answer next => rfl

theorem Decided.followed {first : Action α} {second : α → Action β} {check : Except Fault Unit}
    (decided : Decided machine check (first machine))
    (ends : ∀ answer next, ∃ result last, second answer next = .ok result last) :
    Decided machine check ((first >>= second) machine) := by
  generalize ran : first machine = outcome at decided
  cases decided with
  | refused fault =>
      rw [run_bind_error ran]
      exact .refused fault
  | done answer next =>
      obtain ⟨result, last, ended⟩ := ends answer next
      rw [run_bind_ok ran, ended]
      exact .done result last

theorem decided_of {action : Action α} {check : Except Fault Unit}
    (refuses : ∀ fault, check = .error fault → action machine = .error fault machine)
    (finishes : check = .ok () → ∃ answer next, action machine = .ok answer next) :
    Decided machine check (action machine) := by
  cases checked : check with
  | error fault =>
      rw [refuses fault checked]
      exact .refused fault
  | ok passed =>
      obtain ⟨answer, next, ran⟩ := finishes checked
      rw [ran]
      exact .done answer next

theorem decided_check (check : Machine → Except Fault Unit) {second : Unit → Action α}
    (finishes : check machine = .ok () →
      ∃ answer next, (ask check >>= second) machine = .ok answer next) :
    Decided machine (check machine) ((ask check >>= second) machine) :=
  decided_of (fun _ refused => run_bind_error (ask_error refused)) finishes

theorem decided_ask (query : Machine → Except Fault α) (check : α → Except Fault Unit)
    {second : α → Action β}
    (rest : ∀ answer, query machine = .ok answer →
      Decided machine (check answer) (second answer machine)) :
    Decided machine (query machine >>= check) ((ask query >>= second) machine) := by
  cases asked : query machine with
  | error fault =>
      rw [run_bind_error (ask_error asked)]
      exact .refused fault
  | ok answer =>
      rw [run_bind_ok (ask_ok asked)]
      exact rest answer asked

theorem Decided.emitted {work : Action α} {check : Except Fault Unit}
    (decided : Decided machine check (work machine)) (instruction : Instruction) :
    Decided machine check (Operation.emit work instruction machine) :=
  decided.followed fun _ next => ⟨_, next, rfl⟩

theorem Decided.silent {work : Action Unit} {check : Except Fault Unit}
    (decided : Decided machine check (work machine)) :
    Decided machine check (Operation.silently work machine) :=
  decided.followed fun _ next => ⟨_, next, rfl⟩

theorem decided_onCarriers (work : CarrierSystem → Except Fault CarrierSystem) :
    Decided machine (discard (work machine.carriers))
      (onCarriers (fun carriers => return ((), ← work carriers)) machine) := by
  cases ran : work machine.carriers with
  | error fault =>
      simp only [onCarriers, ran]
      exact .refused fault
  | ok carriers =>
      simp only [onCarriers, ran]
      exact .done () _

theorem decided_setRacking (racking : Binary64) :
    Decided machine (machine.checkRacking racking) (setRacking racking machine) :=
  decided_check (·.checkRacking racking) fun checked => ⟨_, _, setRacking_done checked⟩

theorem decided_emitRack (racking : Binary64) :
    Decided machine (machine.checkRacking racking)
      (Operation.emitRack (setRacking racking) racking machine) :=
  (decided_setRacking racking).followed fun _ next => ⟨_, next, rfl⟩

theorem decided_modify (check : Machine → Except Fault Unit) (change : Machine → Machine) :
    Decided machine (check machine) ((ask check >>= fun _ => modify change) machine) := by
  refine decided_check check fun checked => ?_
  rw [run_bind_ok (ask_ok checked)]
  exact ⟨(), change machine, rfl⟩

theorem decided_setLayer (position layer : Nat) :
    Decided machine (machine.checkLayer position layer) (setLayer position layer machine) :=
  decided_modify (·.checkLayer position layer) _

theorem checkLayer_within {position layer : Nat} (within : layer < machine.gauge) :
    machine.checkLayer position layer = machine.checkPosition position := by
  rw [checkLayer, if_neg (Nat.not_le_of_lt within)]
  cases machine.checkPosition position <;> rfl

theorem decided_layerWithin (position : Nat) {layer : Nat} (within : layer < machine.gauge) :
    Decided machine (machine.checkPosition position) (setLayer position layer machine) := by
  rw [← checkLayer_within within]
  exact decided_setLayer position layer

theorem decided_shiftLayer (positive : 0 < machine.gauge) (position shift : Nat) :
    Decided machine (machine.checkPosition position) (shiftLayer position shift machine) := by
  cases checked : machine.checkPosition position with
  | error fault =>
      have unknown : machine.layerAt position = .error fault := by
        rw [layerAt, checked]
        rfl
      rw [shiftLayer, run_bind_error (ask_error unknown)]
      exact .refused fault
  | ok passed =>
      have found : machine.layerAt position = .ok (machine.layer position) := by
        rw [layerAt, checked]
        rfl
      rw [shiftLayer, run_bind_ok (ask_ok found)]
      by_cases still : shift = 0
      · simp only [still, ne_eq, not_true_eq_false, if_false]
        exact .done () machine
      · -- The new layer is counted modulo the gauge, so its own check passes.
        simp only [ne_eq, still, not_false_eq_true, if_true, run_get_bind]
        rw [← checked]
        exact decided_layerWithin position (Nat.mod_lt _ positive)

theorem decided_peelBy (shaped : machine.Shaped) {plan : PeelPlan} {sheets : List Nat}
    (fits : plan.Fits machine sheets) (active : String) :
    Decided machine (machine.checkCrossings (plan.ordered machine))
      (peelBy plan active machine) := by
  rcases peelBy_run shaped fits active with ⟨fault, checked, failed⟩ | ⟨checked, ran⟩
  · rw [checked, failed]
    exact .refused fault
  · rw [checked, ran]
    exact .done _ _

theorem decided_resetBy (shaped : machine.Shaped) {plan : PeelPlan} {sheets : List Nat}
    (fits : plan.Fits machine sheets) (active : String) (chosen : Nat → Bool) :
    Decided machine (machine.checkReset plan chosen) (resetBy plan active chosen machine) := by
  rw [checkReset]
  rcases resetBy_run shaped fits active chosen with
    ⟨fault, failed, planned | ⟨returns, planned, checked⟩⟩ | ⟨returns, planned, checked, ran⟩
  · rw [failed, planned]
    exact .refused fault
  · rw [failed, planned]
    change Decided machine (machine.checkCrossings (plan.ordered machine ++ returns)) _
    rw [checked]
    exact .refused fault
  · rw [ran, planned]
    change Decided machine (machine.checkCrossings (plan.ordered machine ++ returns)) _
    rw [checked]
    exact .done _ _

theorem decided_record (position : Nat) :
    Decided machine (discard (machine.presenceAt position)) (recordPosition position machine) := by
  rw [recordPosition]
  cases present : machine.presenceAt position with
  | error fault =>
      rw [run_bind_error (ask_error present)]
      exact .refused fault
  | ok presence =>
      rw [run_bind_ok (ask_ok present)]
      exact .done () _

theorem decided_knit (shaped : machine.Shaped) (known : machine.Known) (needle : Needle)
    (carriers : CarrierSet) :
    Decided machine (machine.checkMaking .knit needle carriers) (knit needle carriers machine) := by
  refine decided_check (·.checkMaking .knit needle carriers) fun checked => ?_
  obtain ⟨_, _, _, _, ran⟩ := knit_done shaped known checked
  exact ⟨_, _, ran⟩

theorem decided_tuck (shaped : machine.Shaped) (needle : Needle) (carriers : CarrierSet) :
    Decided machine (machine.checkMaking .tuck needle carriers) (tuck needle carriers machine) := by
  refine decided_check (·.checkMaking .tuck needle carriers) fun checked => ?_
  obtain ⟨_, _, _, _, ran⟩ := tuck_done shaped checked
  exact ⟨_, _, ran⟩

theorem decided_split (shaped : machine.Shaped) (known : machine.Known) (start target : Needle)
    (carriers : CarrierSet) :
    Decided machine (machine.checkSplit start target carriers)
      (split start target carriers machine) := by
  refine decided_check (·.checkSplit start target carriers) fun checked => ?_
  obtain ⟨_, _, _, _, ran⟩ := split_done shaped known checked
  exact ⟨_, _, ran⟩

theorem decided_drop (shaped : machine.Shaped) (needle : Needle) :
    Decided machine (machine.checkWork .drop needle) (drop needle machine) :=
  decided_check (·.checkWork .drop needle) fun checked => ⟨_, _, drop_done shaped checked⟩

theorem decided_xfer (shaped : machine.Shaped) (start target : Needle) :
    Decided machine (machine.checkTransfer start target) (xfer start target machine) := by
  refine decided_of (fun fault refused => ?_) fun checked => ⟨_, _, xfer_done shaped checked⟩
  have stuck : shift start target machine = .error fault machine :=
    run_bind_error (ask_error refused)
  exact run_bind_error stuck

theorem decided_peel (shaped : machine.Shaped) (sheet : Nat) :
    Decided machine (Operation.check machine (.peel sheet)) (peel sheet machine) := by
  refine decided_ask (·.peelPlan sheet) _ fun plan planned => ?_
  exact (decided_peelBy shaped (peelPlan_fits planned) (Text.decimal sheet)).followed
    fun _ next => ⟨_, next, rfl⟩

theorem decided_peelAll (shaped : machine.Shaped) (sheets : List Nat) :
    Decided machine (Operation.check machine (.peelSheets sheets)) (peelAll sheets machine) :=
  decided_ask (·.peelPlanAll sheets) _ fun _ planned =>
    decided_peelBy shaped (peelPlanAll_fits planned) (Text.bracketed sheets)

theorem decided_reset (shaped : machine.Shaped) (sheet : Nat) :
    Decided machine (Operation.check machine (.reset sheet)) (reset sheet machine) :=
  decided_ask (·.peelPlan sheet) _ fun _ planned =>
    decided_resetBy shaped (peelPlan_fits planned) (Text.decimal sheet) _

theorem decided_resetAll (shaped : machine.Shaped) (sheets : List Nat) :
    Decided machine (Operation.check machine (.resetSheets sheets)) (resetAll sheets machine) :=
  decided_ask (·.peelPlanAll sheets) _ fun _ planned =>
    decided_resetBy shaped (peelPlanAll_fits planned) (Text.bracketed sheets) _

end Decisions

/-- The checks of a call decide it. -/
theorem Sound.decided (sound : machine.Sound) (positive : 0 < machine.gauge) (call : Call) :
    Decided machine (call.check machine) (call.act machine) := by
  have shaped := sound.shaped
  have known := sound.known
  cases call with
  | record position => exact (decided_record position).silent
  | apply operation =>
      cases operation with
      | bringIn carrier => exact (decided_onCarriers (·.bringIn carrier)).emitted _
      | inhook carrier => exact (decided_onCarriers (·.inhook carrier)).emitted _
      | releasehook carrier => exact (decided_onCarriers (·.releasehook carrier)).emitted _
      | out carrier => exact (decided_onCarriers (·.out carrier)).emitted _
      | outhook carrier => exact (decided_onCarriers (·.outhook carrier)).emitted _
      | knit needle carriers _ => exact (decided_knit shaped known needle carriers).emitted _
      | tuck needle carriers _ => exact (decided_tuck shaped needle carriers).emitted _
      | split start target carriers _ =>
          exact (decided_split shaped known start target carriers).emitted _
      | drop needle => exact (decided_drop shaped needle).emitted _
      | xfer start target => exact (decided_xfer shaped start target).emitted _
      | align front back => exact decided_emitRack (rackingBetween front back)
      | rack racking => exact decided_emitRack racking
      | switchDirection => exact .done _ _
      | gauge number => exact (decided_modify (·.checkEvenGauge number) _).silent
      | sheet number =>
          exact (decided_modify (fun current => checkSheet number current.gauge) _).silent
      | setLayer position layer => exact (decided_setLayer position layer).silent
      | pushLayerBackward position _ => exact (decided_shiftLayer positive position _).silent
      | pushLayerForward position _ => exact (decided_shiftLayer positive position _).silent
      | layerToFront position => exact (decided_layerWithin position positive).silent
      | layerToBack position =>
          exact (decided_layerWithin position (Nat.sub_one_lt_of_lt positive)).silent
      | peel sheet => exact (decided_peel shaped sheet).followed fun _ next => ⟨_, next, rfl⟩
      | peelSheets sheets => exact decided_peelAll shaped sheets
      | reset sheet => exact decided_reset shaped sheet
      | resetSheets sheets => exact decided_resetAll shaped sheets
      | comment text => exact .done _ _

theorem Reachable.decided (reachable : machine.Reachable) (call : Call) :
    Decided machine (call.check machine) (call.act machine) := by
  have positive : 0 < machine.gauge := by
    refine Nat.pos_of_ne_zero fun none => ?_
    have valid := reachable.validGauge
    rw [none] at valid
    cases valid
  exact reachable.sound.decided positive call

theorem Reachable.of_error (reachable : machine.Reachable) (call : Call) {fault : Fault}
    {next : Machine} (refused : call.act machine = .error fault next) :
    call.check machine = .error fault ∧ next = machine := by
  have decided := reachable.decided call
  rw [refused] at decided
  exact decided.of_error

theorem Reachable.of_ok (reachable : machine.Reachable) (call : Call) {lines : List Line}
    {next : Machine} (ran : call.act machine = .ok lines next) : next.Reachable := by
  have stepped := reachable.step call
  rwa [Call.after, ran] at stepped

/-- A run that fails stops in the machine that the operations before the refused one leave. -/
theorem Reachable.stopped (reachable : machine.Reachable) {operations : List Operation}
    {fault : Fault} {next : Machine}
    (failed : Program.runAll operations machine = .error fault next) :
    ∃ count operation lines, operations[count]? = some operation ∧
      Program.runAll (operations.take count) machine = .ok lines next ∧
        operation.apply next = .error fault next := by
  induction operations generalizing machine with
  | nil => cases failed
  | cons operation rest ih =>
      rw [Program.runAll] at failed
      cases applied : operation.apply machine with
      | error reason stuck =>
          rw [run_bind_error applied] at failed
          cases failed
          obtain ⟨_, rfl⟩ := reachable.of_error (.apply operation) applied
          exact ⟨0, operation, [], rfl, rfl, applied⟩
      | ok lines middle =>
          rw [run_bind_ok applied] at failed
          cases continued : Program.runAll rest middle with
          | ok others last =>
              rw [run_bind_ok continued] at failed
              cases failed
          | error reason stuck =>
              rw [run_bind_error continued] at failed
              cases failed
              have onward := reachable.of_ok (.apply operation) applied
              obtain ⟨count, refused, others, found, ran, fails⟩ := ih onward continued
              refine ⟨count + 1, refused, lines ++ others, found, ?_, fails⟩
              exact runAll_cons_eq_ok.mpr ⟨lines, middle, others, applied, ran, rfl⟩

structure ChecksFirst (machine : Machine) : Prop where
  unchanged : ∀ (call : Call) fault next, call.act machine = .error fault next → next = machine
  done : ∀ call : Call, call.check machine = .ok () →
    ∃ lines next, call.act machine = .ok lines next
  refused : ∀ (call : Call) fault, call.check machine = .error fault →
    call.act machine = .error fault machine
  known : ∀ (call : Call) fault next, call.act machine = .error fault next →
    fault.code ≠ "UNKNOWN_LOOP"
  stopped : ∀ (program : Program) fault next, program.run machine = .error fault next →
    ∃ count operation lines, program.operations[count]? = some operation ∧
      Program.run { program with operations := program.operations.take count } machine =
        .ok lines next ∧ operation.apply next = .error fault next

theorem checksFirst_of_reachable (reachable : machine.Reachable) : machine.ChecksFirst := by
  refine ⟨?_, ?_, ?_, ?_, fun _ _ _ => reachable.stopped⟩
  · exact fun call _ _ refused => (reachable.of_error call refused).2
  · intro call passed
    have decided := reachable.decided call
    rw [passed] at decided
    generalize call.act machine = result at decided
    cases decided with
    | done answer next => exact ⟨answer, next, rfl⟩
  · intro call fault refused
    have decided := reachable.decided call
    rw [refused] at decided
    generalize call.act machine = result at decided
    cases decided
    rfl
  · intro call fault next refused unknown
    obtain ⟨loop, rfl⟩ := code_eq_unknownLoop.mp unknown
    exact machine.knows_check call loop (reachable.of_error call refused).1

theorem checksFirst_tucked_split :
    let tucked := (initial twoNeedles).afterAll [.apply (.inhook ⟨1⟩),
      .apply (.tuck (.front 0) [⟨1⟩] none)]
    let split : Call := .apply (.split (.front 0) (.back 1) [⟨1⟩] none)
    tucked.ChecksFirst ∧ tucked.loops (.front 0) = [⟨0⟩] ∧
      ∃ fault, split.act tucked = .error fault tucked := by
  intro tucked split
  have first : tucked.ChecksFirst := checksFirst_of_reachable (reachable_twoNeedles _)
  have refuses : (split.check tucked).toOption = none := by decide +kernel
  refine ⟨first, by decide +kernel, ?_⟩
  cases checked : split.check tucked with
  | error fault => exact ⟨fault, first.refused split fault checked⟩
  | ok passed =>
      rw [checked] at refuses
      cases refuses

end Machine

end VBed
