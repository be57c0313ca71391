import VBed.Proofs.Making

/-!
What each piece of work does. Work whose checks pass is done to the end, and the state it leaves
is written out; work that is refused leaves the machine as it was.
-/

namespace VBed

namespace CarrierSystem

theorem checkInService_eq_ok {system : CarrierSystem} {carriers : CarrierSet} :
    system.checkInService carriers = .ok () ↔
      ∀ id ∈ carriers, ∃ carrier, system.carrier? id = some carrier ∧ carrier.active = true := by
  rw [checkInService, forM_eq_ok]
  refine forall_congr' fun id => imp_congr_right fun _ => ?_
  simp only [carrier]
  cases system.carrier? id <;> simp

theorem carrier?_put_isSome {system : CarrierSystem} {id other : CarrierId} {carrier : Carrier}
    (exists_ : (system.carrier? other).isSome) :
    ((system.put id carrier).carrier? other).isSome := by
  simp only [carrier?, put] at exists_ ⊢
  split at exists_
  · simp at exists_
  · rename_i numbered
    simpa [numbered] using exists_

/-- Carriers that exist can all be fed. -/
theorem feedAll_succeeds (carriers : CarrierSet) :
    ∀ system : CarrierSystem, (∀ id ∈ carriers, (system.carrier? id).isSome) →
      ∃ yarns fed, system.feedAll carriers = .ok (yarns, fed) ∧
        yarns.length = carriers.length := by
  induction carriers with
  | nil =>
      intro system _
      exact ⟨[], system, rfl, rfl⟩
  | cons id rest ih =>
      intro system existing
      obtain ⟨carrier, found⟩ := Option.isSome_iff_exists.mp (existing id (by simp))
      have fed : system.feed id = .ok (carrier.yarn, system.put id carrier.countLoop) := by
        simp only [feed, CarrierSystem.carrier, found]
        rfl
      obtain ⟨yarns, last, ran, sameLength⟩ := ih (system.put id carrier.countLoop)
        (fun other member => carrier?_put_isSome (existing other (by simp [member])))
      refine ⟨carrier.yarn :: yarns, last, ?_, by simp [sameLength]⟩
      simp only [feedAll, fed, bind_eq_ok]
      exact ⟨_, rfl, _, ran, rfl⟩

theorem makeLoop_succeeds {system : CarrierSystem} {carriers : CarrierSet}
    (inService : system.checkInService carriers = .ok ()) :
    ∃ yarns fed, system.makeLoop carriers = .ok (yarns, fed) ∧
      yarns.length = carriers.length := by
  obtain ⟨yarns, fed, ran, sameLength⟩ := feedAll_succeeds carriers system (by
    intro id member
    obtain ⟨carrier, found, _⟩ := checkInService_eq_ok.mp inService id member
    simp [found])
  refine ⟨yarns, fed, ?_, sameLength⟩
  rw [makeLoop, then_eq_ok]
  exact ⟨inService, ran⟩

end CarrierSystem

namespace Bed

theorem put_self {bed : Bed} {needle : Needle} {held : List LoopId}
    (found : bed.at? needle = some held) : bed.put needle held = bed := by
  have replaced : ∀ slots : Array (List LoopId), slots[needle.position]? = some held →
      slots.setIfInBounds needle.position held = slots := by
    intro slots inPlace
    apply Array.ext_getElem?
    intro position
    rw [getElem?_replaced]
    split
    · rename_i same
      rw [same, inPlace, Option.map_some]
    · rfl
  simp only [at?, slots] at found
  simp only [put]
  split
  · rename_i slider
    rw [replaced bed.sliders (by simpa [slider] using found)]
  · rename_i ordinary
    rw [replaced bed.needles (by simpa [ordinary] using found)]

end Bed

def Presence.only : Side → Presence
  | .front => ⟨true, false⟩
  | .back => ⟨false, true⟩

theorem Presence.only_inj {first second : Side} :
    Presence.only first = .only second ↔ first = second := by
  cases first <;> cases second <;> simp [only]

namespace Machine

variable {machine : Machine}

def Clear (machine : Machine) (needle : Needle) : Prop :=
  needle.slider = true ∨ machine.loops needle.asSlider = []

def Known (machine : Machine) : Prop :=
  ∀ needle, ∀ loop ∈ machine.loops needle, machine.graph.contains loop = true

def made (machine : Machine) (needle : Needle) (fed : CarrierSystem) (yarns : List Yarn)
    (kept parents : List LoopId) : Machine :=
  { machine.put needle (kept ++ machine.graph.nextLoops yarns.length) with
    carriers := fed
    graph := machine.graph.grown parents (machine.bed needle.side).pull yarns }

def transferred (machine : Machine) (start target : Needle) : Machine :=
  ((machine.moved start target).recorded start.position).recorded target.position

theorem at?_of_inRange (shaped : machine.Shaped) {needle : Needle}
    (inRange : needle.position < machine.needleCount) :
    (machine.bed needle.side).at? needle = some (machine.loops needle) := by
  rw [← shaped.slots needle.side needle.slider, ← Bed.at?_isSome_iff] at inRange
  obtain ⟨held, found⟩ := Option.isSome_iff_exists.mp inRange
  rw [loops, found, Option.getD_some]

theorem loops_outside (shaped : machine.Shaped) {needle : Needle}
    (outside : ¬needle.position < machine.needleCount) : machine.loops needle = [] := by
  rw [← shaped.slots needle.side needle.slider, ← Bed.at?_isSome_iff, Option.not_isSome_iff_eq_none]
    at outside
  rw [loops, outside, Option.getD_none]

theorem checkNeedle_eq_ok (shaped : machine.Shaped) {needle : Needle} :
    machine.checkNeedle needle = .ok () ↔ needle.position < machine.needleCount := by
  rw [checkNeedle, Bed.check_eq_ok, shaped.slots]

theorem checkClear_eq_ok (shaped : machine.Shaped) {needle : Needle}
    (inRange : needle.position < machine.needleCount) :
    machine.checkClear needle = .ok () ↔ machine.Clear needle := by
  have found : (machine.bed needle.side).at? needle.asSlider =
      some (machine.loops needle.asSlider) := at?_of_inRange shaped inRange
  simp only [checkClear, isClear, Bed.isClear, Bed.loopsAt, found, Clear]
  cases machine.loops needle.asSlider <;> cases needle.slider <;> simp

theorem slidersAreClear_iff :
    machine.slidersAreClear = true ↔
      ∀ needle : Needle, needle.slider = true → machine.loops needle = [] := by
  have perBed : ∀ side, (machine.bed side).slidersAreClear = true ↔
      ∀ position, machine.loops ⟨side, position, true⟩ = [] := by
    intro side
    simp only [Bed.slidersAreClear, Array.all_eq_true, List.isEmpty_iff, loops, Bed.at?, Bed.slots,
      if_true]
    constructor
    · intro clear position
      by_cases inRange : position < (machine.bed side).sliders.size
      · simp [inRange, clear position inRange]
      · simp [Nat.le_of_not_lt inRange]
    · intro clear position inRange
      simpa [inRange] using clear position
  rw [slidersAreClear, Bool.and_eq_true]
  change (machine.bed .front).slidersAreClear = true ∧
    (machine.bed .back).slidersAreClear = true ↔ _
  rw [perBed, perBed]
  constructor
  · rintro ⟨front, back⟩ ⟨side, position, slider⟩ isSlider
    cases side <;> simp_all
  · intro clear
    exact ⟨fun position => clear _ rfl, fun position => clear _ rfl⟩

theorem presence_eq (machine : Machine) (position : Nat) :
    machine.presence position =
      ⟨!(machine.loops (.front position)).isEmpty, !(machine.loops (.back position)).isEmpty⟩ := by
  simp only [presence, holdsLoops, loops, Array.getD_eq_getD_getElem?]
  rfl

theorem presence_eq_only_iff {needle : Needle} (ordinary : needle.slider = false) :
    machine.presence needle.position = .only needle.side ↔
      machine.loops needle ≠ [] ∧ machine.loops needle.opposite = [] := by
  obtain ⟨side, position, slider⟩ := needle
  cases ordinary
  rw [presence_eq]
  cases side <;> simp [Presence.only, Needle.opposite, Side.opposite, Needle.front, Needle.back,
    and_comm]

theorem put_self (shaped : machine.Shaped) {needle : Needle}
    (inRange : needle.position < machine.needleCount) :
    machine.put needle (machine.loops needle) = machine := by
  rw [put, Bed.put_self (at?_of_inRange shaped inRange)]
  cases needle.side <;> rfl

theorem onBed_ok {α : Type} {side : Side} {action : Bed.Action α} {answer : α} {bed : Bed}
    {graph : StitchGraph}
    (ran : action (machine.bed side, machine.graph) = .ok answer (bed, graph)) :
    onBed side action machine = .ok answer (machine.equipped side bed graph) := by
  simp only [onBed, ran, equipped_equipped]

theorem equipped_sameGraph (machine : Machine) (side : Side) (bed : Bed) :
    machine.equipped side bed machine.graph = machine.withBed side bed := by
  cases side <;> rfl

theorem takeLoops_done (shaped : machine.Shaped) {needle : Needle}
    (inRange : needle.position < machine.needleCount) :
    takeLoops needle machine = .ok (machine.loops needle) (machine.put needle []) := by
  rw [put, ← equipped_sameGraph, takeLoops]
  apply onBed_ok
  simp only [Bed.drop, Bed.loopsAt, at?_of_inRange shaped inRange]
  rfl

theorem moveLoops_done (shaped : machine.Shaped) {start target : Needle}
    (startInRange : start.position < machine.needleCount)
    (targetInRange : target.position < machine.needleCount) (sides : start.side ≠ target.side) :
    moveLoops start target machine = .ok (machine.loops start) (machine.moved start target) := by
  have taken := takeLoops_done shaped startInRange
  have takenShaped : (machine.put start []).Shaped := shaped.put start []
  have targetInRange' : target.position < (machine.put start []).needleCount := by
    simpa [put] using targetInRange
  have targetKept : (machine.put start []).loops target = machine.loops target := by
    rw [loops_put shaped startInRange, if_neg]
    intro same
    exact sides (by rw [same])
  rw [moveLoops, run_bind_ok taken]
  cases held : machine.loops start with
  | nil =>
      have same : machine.moved start target = machine.put start [] := by
        rw [moved, held, List.append_nil, ← targetKept, put_self takenShaped targetInRange']
      rw [same]
      rfl
  | cons loop rest =>
      have found := at?_of_inRange takenShaped targetInRange'
      have added := onBed_ok
        (Bed.addLoops_moved (machine.put start []).graph (loop :: rest) found)
      rw [targetKept, equipped_sameGraph] at added
      change (onBed target.side _ >>= fun _ => pure (loop :: rest)) (machine.put start []) = _
      rw [run_bind_ok added, moved, held]
      rfl

theorem recordPosition_done (shaped : machine.Shaped) (position : Nat)
    (inRange : position < machine.needleCount) :
    recordPosition position machine = .ok () (machine.recorded position) := by
  have present : machine.presenceAt position = .ok (machine.presence position) := by
    rw [presenceAt, then_eq_ok]
    exact ⟨(checkNeedle_eq_ok shaped).mpr inRange, rfl⟩
  rw [recordPosition, run_bind_ok (ask_ok present)]
  rfl

theorem recordPosition_refused (shaped : machine.Shaped) {position : Nat}
    (outside : ¬position < machine.needleCount) :
    ∃ fault, recordPosition position machine = .error fault machine := by
  cases present : machine.presenceAt position with
  | error fault => exact ⟨fault, run_bind_error (ask_error present)⟩
  | ok presence =>
      have checked := (then_eq_ok.mp present).1
      exact absurd ((checkNeedle_eq_ok shaped).mp checked) outside

@[simp] theorem needleCount_recorded (position : Nat) :
    (machine.recorded position).needleCount = machine.needleCount := rfl

theorem Shaped.recorded (shaped : machine.Shaped) (position : Nat) :
    (machine.recorded position).Shaped :=
  ⟨shaped.valid, shaped.word, shaped.side, shaped.slots, by
    rw [needleCount_recorded, ← shaped.record]
    simp [Machine.recorded], shaped.layers⟩

theorem Shaped.moved (shaped : machine.Shaped) (start target : Needle) :
    (machine.moved start target).Shaped :=
  (shaped.put start []).put target _

@[simp] theorem needleCount_put (needle : Needle) (held : List LoopId) :
    (machine.put needle held).needleCount = machine.needleCount := by
  simp [put]

@[simp] theorem needleCount_moved (start target : Needle) :
    (machine.moved start target).needleCount = machine.needleCount := by
  simp [moved]

/-- A transfer can be made exactly when both needles are clear, lie on the two beds, and face each
other. -/
theorem checkTransfer_eq_ok (shaped : machine.Shaped) {start target : Needle} :
    machine.checkTransfer start target = .ok () ↔
      start.position < machine.needleCount ∧ target.position < machine.needleCount ∧
        start.side ≠ target.side ∧ machine.Clear target ∧ machine.Clear start ∧
        machine.checkFacing start target = .ok () := by
  simp only [checkTransfer, throw_bind, then_eq_ok, refusal_eq_ok, checkNeedle_eq_ok shaped]
  constructor
  · rintro ⟨startInRange, targetInRange, sides, targetClear, startClear, facing⟩
    exact ⟨startInRange, targetInRange, sides,
      (checkClear_eq_ok shaped targetInRange).mp targetClear,
      (checkClear_eq_ok shaped startInRange).mp startClear, facing⟩
  · rintro ⟨startInRange, targetInRange, sides, targetClear, startClear, facing⟩
    exact ⟨startInRange, targetInRange, sides,
      (checkClear_eq_ok shaped targetInRange).mpr targetClear,
      (checkClear_eq_ok shaped startInRange).mpr startClear, facing⟩

theorem shift_done (shaped : machine.Shaped) {start target : Needle}
    (checked : machine.checkTransfer start target = .ok ()) :
    shift start target machine = .ok (machine.loops start) (machine.moved start target) := by
  obtain ⟨startInRange, targetInRange, sides, _⟩ := (checkTransfer_eq_ok shaped).mp checked
  rw [shift, run_bind_ok (ask_ok checked)]
  exact moveLoops_done shaped startInRange targetInRange sides

theorem xfer_done (shaped : machine.Shaped) {start target : Needle}
    (checked : machine.checkTransfer start target = .ok ()) :
    xfer start target machine = .ok (machine.loops start) (machine.transferred start target) := by
  obtain ⟨startInRange, targetInRange, _⟩ := (checkTransfer_eq_ok shaped).mp checked
  have movedShaped : (machine.moved start target).Shaped := shaped.moved start target
  have first := recordPosition_done movedShaped start.position (by simpa using startInRange)
  have second := recordPosition_done (movedShaped.recorded start.position) target.position
    (by simpa using targetInRange)
  rw [xfer, run_bind_ok (shift_done shaped checked), run_bind_ok first, run_bind_ok second]
  rfl

theorem drop_done (shaped : machine.Shaped) {needle : Needle}
    (checked : machine.checkWork .drop needle = .ok ()) :
    drop needle machine =
      .ok (machine.loops needle) ((machine.put needle []).recorded needle.position) := by
  have inRange : needle.position < machine.needleCount := by
    exact (checkNeedle_eq_ok shaped).mp (then_eq_ok.mp checked).1
  have onRecord := recordPosition_done (shaped.put needle []) needle.position
    (by simpa using inRange)
  rw [drop, run_bind_ok (ask_ok checked), run_bind_ok (takeLoops_done shaped inRange),
    run_bind_ok onRecord]
  rfl

theorem checkMaking_eq_ok (shaped : machine.Shaped) {work : Work} {needle : Needle}
    {carriers : CarrierSet} :
    machine.checkMaking work needle carriers = .ok () ↔
      needle.position < machine.needleCount ∧ needle.slider = false ∧
        machine.slidersAreClear = true ∧ machine.carriers.checkInService carriers = .ok () := by
  simp [checkMaking, checkWork, checkNeedle_eq_ok shaped, and_assoc]

theorem makeLoops_run {needle : Needle} {carriers : CarrierSet} {dropPrior : Bool}
    {yarns : List Yarn} {fed : CarrierSystem} {loops held : List LoopId} {graph : StitchGraph}
    (feeds : machine.carriers.makeLoop carriers = .ok (yarns, fed))
    (added : Bed.addLoops needle (.made yarns) dropPrior
      (machine.bed needle.side, machine.graph) =
        .ok loops ((machine.bed needle.side).put needle held, graph)) :
    makeLoops needle carriers dropPrior machine =
      .ok loops { machine.put needle held with carriers := fed, graph := graph } := by
  let supplied : Machine := { machine with carriers := fed }
  have feeding : onCarriers (·.makeLoop carriers) machine = .ok yarns supplied := by
    simp only [onCarriers, feeds]
    rfl
  have sameBed : supplied.bed needle.side = machine.bed needle.side := by
    cases needle.side <;> rfl
  rw [← sameBed] at added
  rw [makeLoops, run_bind_ok feeding]
  change onBed needle.side _ supplied = _
  rw [onBed_ok added, sameBed, put]
  cases needle.side <;> rfl

theorem makeLoops_dropping (shaped : machine.Shaped) (known : machine.Known) {needle : Needle}
    {carriers : CarrierSet} {yarns : List Yarn} {fed : CarrierSystem}
    (inRange : needle.position < machine.needleCount)
    (feeds : machine.carriers.makeLoop carriers = .ok (yarns, fed)) :
    makeLoops needle carriers true machine =
      .ok (machine.graph.nextLoops yarns.length)
        (machine.made needle fed yarns [] (machine.loops needle)) :=
  makeLoops_run feeds (Bed.addLoops_dropping yarns (at?_of_inRange shaped inRange)
    fun loop member => Nat.le_of_lt (StitchGraph.contains_iff.mp (known needle loop member)))

theorem makeLoops_keeping (shaped : machine.Shaped) {needle : Needle} {carriers : CarrierSet}
    {yarns : List Yarn} {fed : CarrierSystem} (inRange : needle.position < machine.needleCount)
    (feeds : machine.carriers.makeLoop carriers = .ok (yarns, fed)) :
    makeLoops needle carriers false machine =
      .ok (machine.graph.nextLoops yarns.length)
        (machine.made needle fed yarns (machine.loops needle) []) :=
  makeLoops_run feeds (Bed.addLoops_keeping yarns (at?_of_inRange shaped inRange))

@[simp] theorem needleCount_made (needle : Needle) (fed : CarrierSystem) (yarns : List Yarn)
    (kept parents : List LoopId) :
    (machine.made needle fed yarns kept parents).needleCount = machine.needleCount :=
  needleCount_put needle _

theorem Shaped.made (shaped : machine.Shaped) (needle : Needle) (fed : CarrierSystem)
    (yarns : List Yarn) (kept parents : List LoopId) :
    (machine.made needle fed yarns kept parents).Shaped := by
  have putShaped := shaped.put needle (kept ++ machine.graph.nextLoops yarns.length)
  refine ⟨putShaped.valid, putShaped.word, ?_, ?_, putShaped.record, putShaped.layers⟩
  · intro side
    cases side
    · exact putShaped.side .front
    · exact putShaped.side .back
  · intro side slider
    cases side
    · exact putShaped.slots .front slider
    · exact putShaped.slots .back slider

theorem knit_done (shaped : machine.Shaped) (known : machine.Known) {needle : Needle}
    {carriers : CarrierSet} (checked : machine.checkMaking .knit needle carriers = .ok ()) :
    ∃ yarns fed, machine.carriers.makeLoop carriers = .ok (yarns, fed) ∧
      yarns.length = carriers.length ∧
      knit needle carriers machine =
        .ok (machine.graph.nextLoops yarns.length)
          ((machine.made needle fed yarns [] (machine.loops needle)).recorded
            needle.position) := by
  obtain ⟨inRange, _, _, inService⟩ := (checkMaking_eq_ok shaped).mp checked
  obtain ⟨yarns, fed, feeds, sameLength⟩ := CarrierSystem.makeLoop_succeeds inService
  have onRecord := recordPosition_done
    (shaped.made needle fed yarns [] (machine.loops needle)) needle.position
    (by simpa using inRange)
  refine ⟨yarns, fed, feeds, sameLength, ?_⟩
  rw [knit, run_bind_ok (ask_ok checked),
    run_bind_ok (makeLoops_dropping shaped known inRange feeds), run_bind_ok onRecord]
  rfl

theorem tuck_done (shaped : machine.Shaped) {needle : Needle} {carriers : CarrierSet}
    (checked : machine.checkMaking .tuck needle carriers = .ok ()) :
    ∃ yarns fed, machine.carriers.makeLoop carriers = .ok (yarns, fed) ∧
      yarns.length = carriers.length ∧
      tuck needle carriers machine =
        .ok (machine.graph.nextLoops yarns.length)
          ((machine.made needle fed yarns (machine.loops needle) []).recorded
            needle.position) := by
  obtain ⟨inRange, _, _, inService⟩ := (checkMaking_eq_ok shaped).mp checked
  obtain ⟨yarns, fed, feeds, sameLength⟩ := CarrierSystem.makeLoop_succeeds inService
  have onRecord := recordPosition_done
    (shaped.made needle fed yarns (machine.loops needle) []) needle.position
    (by simpa using inRange)
  refine ⟨yarns, fed, feeds, sameLength, ?_⟩
  rw [tuck, run_bind_ok (ask_ok checked),
    run_bind_ok (makeLoops_keeping shaped inRange feeds), run_bind_ok onRecord]
  rfl

@[simp] theorem loops_recorded (position : Nat) (needle : Needle) :
    (machine.recorded position).loops needle = machine.loops needle := by
  cases needle with
  | mk side position slider => cases side <;> rfl

@[simp] theorem presence_recorded (position other : Nat) :
    (machine.recorded position).presence other = machine.presence other := rfl

@[simp] theorem graph_put (needle : Needle) (held : List LoopId) :
    (machine.put needle held).graph = machine.graph := by
  simp [put]

@[simp] theorem graph_moved (start target : Needle) :
    (machine.moved start target).graph = machine.graph := by
  simp [moved]

@[simp] theorem record_put (needle : Needle) (held : List LoopId) :
    (machine.put needle held).record = machine.record := by
  simp [put]

@[simp] theorem record_moved (start target : Needle) :
    (machine.moved start target).record = machine.record := by
  simp [moved]

@[simp] theorem carriers_put (needle : Needle) (held : List LoopId) :
    (machine.put needle held).carriers = machine.carriers := by
  rw [put]
  cases needle.side <;> rfl

@[simp] theorem carriers_moved (start target : Needle) :
    (machine.moved start target).carriers = machine.carriers := by
  simp [moved]

theorem loops_moved (shaped : machine.Shaped) {start target : Needle}
    (startInRange : start.position < machine.needleCount)
    (targetInRange : target.position < machine.needleCount) (needle : Needle) :
    (machine.moved start target).loops needle =
      if needle = target then machine.loops target ++ machine.loops start
      else if needle = start then [] else machine.loops needle := by
  rw [moved, loops_put (shaped.put start []) (by simpa using targetInRange),
    loops_put shaped startInRange]

theorem loops_moved_start (shaped : machine.Shaped) {start target : Needle}
    (startInRange : start.position < machine.needleCount)
    (targetInRange : target.position < machine.needleCount) (differs : start ≠ target) :
    (machine.moved start target).loops start = [] := by
  rw [loops_moved shaped startInRange targetInRange, if_neg differs, if_pos rfl]

theorem loops_made (shaped : machine.Shaped) {needle : Needle}
    (inRange : needle.position < machine.needleCount) (fed : CarrierSystem) (yarns : List Yarn)
    (kept parents : List LoopId) (other : Needle) :
    (machine.made needle fed yarns kept parents).loops other =
      if other = needle then kept ++ machine.graph.nextLoops yarns.length
      else machine.loops other := by
  have viewed := loops_put shaped inRange (kept ++ machine.graph.nextLoops yarns.length) other
  rw [← viewed]
  cases other with
  | mk side position slider => cases side <;> rfl

theorem Known.moved (shaped : machine.Shaped) (known : machine.Known) {start target : Needle}
    (startInRange : start.position < machine.needleCount)
    (targetInRange : target.position < machine.needleCount) :
    (machine.moved start target).Known := by
  intro needle loop member
  rw [graph_moved]
  rw [loops_moved shaped startInRange targetInRange] at member
  split at member
  · rcases List.mem_append.mp member with there | here
    · exact known target loop there
    · exact known start loop here
  · split at member
    · simp at member
    · exact known needle loop member

theorem presence_made (shaped : machine.Shaped) {needle : Needle}
    (inRange : needle.position < machine.needleCount) (fed : CarrierSystem) (yarns : List Yarn)
    (kept parents : List LoopId) {position : Nat} (elsewhere : position ≠ needle.position) :
    (machine.made needle fed yarns kept parents).presence position =
      machine.presence position := by
  have front : Needle.front position ≠ needle :=
    fun same => elsewhere (congrArg Needle.position same)
  have back : Needle.back position ≠ needle :=
    fun same => elsewhere (congrArg Needle.position same)
  simp only [presence_eq, loops_made shaped inRange, if_neg front, if_neg back]

/-- Recording both positions of a split at its end is recording the transfer and then the knit. -/
theorem recorded_made_transferred (shaped : machine.Shaped) {start target : Needle}
    (startInRange : start.position < machine.needleCount) (fed : CarrierSystem)
    (yarns : List Yarn) :
    ((machine.transferred start target).made start fed yarns [] []).recorded start.position =
      (((machine.moved start target).made start fed yarns [] []).recorded
        start.position).recorded target.position := by
  let middle := machine.moved start target
  let finished := middle.made start fed yarns [] []
  have middleStart : start.position < middle.needleCount := by simpa [middle] using startInRange
  have sameRecord : finished.record = middle.record := record_put start _
  have left : ((machine.transferred start target).made start fed yarns [] []).recorded
      start.position = { finished with
        record := ((middle.record.setIfInBounds start.position (middle.presence start.position)
          ).setIfInBounds target.position (middle.presence target.position)
          ).setIfInBounds start.position (finished.presence start.position) } := by
    cases start with
    | mk side position slider => cases side <;> rfl
  have right : (finished.recorded start.position).recorded target.position = { finished with
      record := (middle.record.setIfInBounds start.position (finished.presence start.position)
        ).setIfInBounds target.position (finished.presence target.position) } := by
    rw [← sameRecord]
    rfl
  rw [left, right]
  congr 1
  -- At one position the last record counts; at two, making loops leaves the target as recorded.
  by_cases same : target.position = start.position
  · rw [same]
    simp [Array.setIfInBounds_setIfInBounds]
  · have elsewhere : finished.presence target.position = middle.presence target.position :=
      presence_made (shaped.moved start target) middleStart fed yarns [] [] same
    rw [elsewhere, Array.setIfInBounds_comm _ _ (Ne.symm same), Array.setIfInBounds_setIfInBounds,
      Array.setIfInBounds_comm _ _ same]

theorem checkSplit_eq_ok (shaped : machine.Shaped) {start target : Needle}
    {carriers : CarrierSet} :
    machine.checkSplit start target carriers = .ok () ↔
      machine.checkTransfer start target = .ok () ∧
        machine.checkMaking .split start carriers = .ok () ∧
        (target.slider = true → machine.loops start = []) := by
  simp only [checkSplit, then_eq_ok]
  refine and_congr_right fun transfer => and_congr_right fun _ => ?_
  have inRange := ((checkTransfer_eq_ok shaped).mp transfer).1
  have held : machine.hasLoops start = .ok (!(machine.loops start).isEmpty) := by
    simp only [hasLoops, Bed.hasLoops, Bed.loopsAt, at?_of_inRange shaped inRange]
    rfl
  by_cases empty : machine.loops start = [] <;> cases target.slider <;> simp [held, empty]

/-- A split is a transfer with the needle knitted behind it. -/
theorem split_done (shaped : machine.Shaped) (known : machine.Known) {start target : Needle}
    {carriers : CarrierSet} (checked : machine.checkSplit start target carriers = .ok ()) :
    ∃ yarns fed, machine.carriers.makeLoop carriers = .ok (yarns, fed) ∧
      yarns.length = carriers.length ∧
      split start target carriers machine =
        .ok (machine.graph.nextLoops yarns.length)
          (((machine.transferred start target).made start fed yarns [] []).recorded
            start.position) := by
  obtain ⟨transfer, making, _⟩ := (checkSplit_eq_ok shaped).mp checked
  obtain ⟨startInRange, targetInRange, sides, _⟩ := (checkTransfer_eq_ok shaped).mp transfer
  obtain ⟨_, _, _, inService⟩ := (checkMaking_eq_ok shaped).mp making
  obtain ⟨yarns, fed, feeds, sameLength⟩ := CarrierSystem.makeLoop_succeeds inService
  let middle := machine.moved start target
  let finished := middle.made start fed yarns [] []
  have middleShaped : middle.Shaped := shaped.moved start target
  have middleStart : start.position < middle.needleCount := by simpa [middle] using startInRange
  have emptied : middle.loops start = [] :=
    loops_moved_start shaped startInRange targetInRange fun same => sides (by rw [same])
  have makes : makeLoops start carriers true middle =
      .ok (machine.graph.nextLoops yarns.length) finished := by
    have makes := makeLoops_dropping middleShaped
      (known.moved shaped startInRange targetInRange) middleStart
      (by simpa [middle] using feeds)
    rwa [emptied, graph_moved] at makes
  have finishedShaped : finished.Shaped := middleShaped.made start fed yarns [] []
  have first := recordPosition_done finishedShaped start.position
    (by simpa [finished, middle] using startInRange)
  have second := recordPosition_done (finishedShaped.recorded start.position) target.position
    (by simpa [finished, middle] using targetInRange)
  refine ⟨yarns, fed, feeds, sameLength, ?_⟩
  rw [split, run_bind_ok (ask_ok checked),
    run_bind_ok (moveLoops_done shaped startInRange targetInRange sides), run_bind_ok makes,
    run_bind_ok first, run_bind_ok second]
  change EStateM.Result.ok _ ((finished.recorded start.position).recorded target.position) = _
  rw [recorded_made_transferred shaped startInRange]

end Machine

end VBed
