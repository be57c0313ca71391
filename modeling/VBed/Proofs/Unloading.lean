import VBed.Proofs.Refusals

/-!
Loaded sliders never block the machine for good. On a straight machine the loops of a front slider
can always go to the slider that it faces, for sliders are always clear. With the front slider
empty, both needles that the back slider faces are clear, and its loops can go on to the front
needle. So two transfers unload a position, whatever lies on its needles and sliders.
-/

namespace VBed

def Operation.isRackOrXfer : Operation → Bool
  | rack _ => true
  | xfer _ _ => true
  | _ => false

namespace Machine

variable {machine next : Machine} {position : Nat}

def frontSlider (position : Nat) : Needle := ⟨.front, position, true⟩

def backSlider (position : Nat) : Needle := ⟨.back, position, true⟩

def unload (position : Nat) : List Operation :=
  [.xfer (frontSlider position) (backSlider position),
    .xfer (backSlider position) (.front position)]

def unloadAll (positions : List Nat) : List Operation :=
  .rack .zero :: positions.flatMap unload

def unloaded (machine : Machine) (position : Nat) : Machine :=
  (machine.transferred (frontSlider position) (backSlider position)).transferred
    (backSlider position) (.front position)

/-- The loops of a needle once the sliders at its position are empty: those of the sliders lie on
the front needle, behind the loops that it held. -/
def gathered (machine : Machine) (needle : Needle) : List LoopId :=
  match needle.slider, needle.side with
  | true, _ => []
  | false, .front => machine.loops (.front needle.position) ++
      (machine.loops (backSlider needle.position) ++ machine.loops (frontSlider needle.position))
  | false, .back => machine.loops (.back needle.position)

theorem gathered_congr {needle : Needle} (same : ∀ other : Needle,
    other.position = needle.position → next.loops other = machine.loops other) :
    next.gathered needle = machine.gathered needle := by
  rw [gathered, gathered, same (.front needle.position) rfl, same (.back needle.position) rfl,
    same (frontSlider needle.position) rfl, same (backSlider needle.position) rfl]

theorem checkTransfer_straight (shaped : machine.Shaped) (straight : machine.racking = .zero)
    (start target : Needle) (inRange : start.position < machine.needleCount)
    (same : target.position = start.position) (sides : start.side ≠ target.side)
    (targetClear : machine.Clear target) (startClear : machine.Clear start) :
    machine.checkTransfer start target = .ok () := by
  have word : start.position < Text.wordCount := Nat.lt_trans inRange shaped.word
  have targetInRange : target.position < machine.needleCount := by rwa [same]
  exact (checkTransfer_eq_ok shaped).mpr ⟨inRange, targetInRange, sides, targetClear, startClear,
    checkFacing_straight straight same word⟩

theorem apply_xfer (shaped : machine.Shaped) {start target : Needle}
    (checked : machine.checkTransfer start target = .ok ()) :
    (Operation.xfer start target).apply machine =
      .ok [.plain (.xfer start target)] (machine.transferred start target) :=
  emit_done (xfer_done shaped checked)

theorem racking_transferred (start target : Needle) :
    (machine.transferred start target).racking = machine.racking :=
  racking_moved start target

theorem racking_unloaded : (machine.unloaded position).racking = machine.racking := by
  rw [unloaded, racking_transferred, racking_transferred]

theorem needleCount_unloaded : (machine.unloaded position).needleCount = machine.needleCount := by
  rw [unloaded, needleCount_transferred, needleCount_transferred]

theorem Shaped.unloaded (shaped : machine.Shaped) (position : Nat) :
    (machine.unloaded position).Shaped :=
  (shaped.transferred _ _).transferred _ _

theorem loops_frontSlider_transferred (shaped : machine.Shaped)
    (inRange : position < machine.needleCount) :
    (machine.transferred (frontSlider position) (backSlider position)).loops
      (frontSlider position) = [] := by
  rw [loops_transferred,
    loops_moved_start shaped inRange inRange (by simp [frontSlider, backSlider])]

/-- Both transfers that unload a position are possible on a straight machine. -/
theorem unload_run (shaped : machine.Shaped) (straight : machine.racking = .zero)
    (inRange : position < machine.needleCount) :
    ∃ lines, Program.runAll (unload position) machine = .ok lines (machine.unloaded position) := by
  let middle := machine.transferred (frontSlider position) (backSlider position)
  have middleShaped : middle.Shaped := shaped.transferred _ _
  have middleStraight : middle.racking = .zero := (racking_transferred _ _).trans straight
  have middleInRange : position < middle.needleCount := by simpa [middle] using inRange
  have first := apply_xfer shaped (checkTransfer_straight shaped straight (frontSlider position)
    (backSlider position) inRange rfl (by simp [frontSlider, backSlider]) (Or.inl rfl) (Or.inl rfl))
  -- The front needle is clear only now that the slider behind it is empty.
  have second := apply_xfer middleShaped (checkTransfer_straight middleShaped middleStraight
    (backSlider position) (.front position) middleInRange rfl (by simp [backSlider, Needle.front])
    (Or.inr (loops_frontSlider_transferred shaped inRange)) (Or.inl rfl))
  refine ⟨[.plain (.xfer (frontSlider position) (backSlider position)),
    .plain (.xfer (backSlider position) (.front position))], ?_⟩
  exact runAll_cons_eq_ok.mpr ⟨_, middle, _, first,
    runAll_cons_eq_ok.mpr ⟨_, _, _, second, rfl, rfl⟩, rfl⟩

theorem unloading_inRange (inRange : position < machine.needleCount) :
    (frontSlider position).position < machine.needleCount ∧
      (backSlider position).position < machine.needleCount ∧
      (backSlider position).position < (machine.transferred (frontSlider position)
        (backSlider position)).needleCount ∧
      (Needle.front position).position < (machine.transferred (frontSlider position)
        (backSlider position)).needleCount := by
  rw [needleCount_transferred]
  exact ⟨inRange, inRange, inRange, inRange⟩

theorem untouched_unloaded (shaped : machine.Shaped) (inRange : position < machine.needleCount)
    {other : Nat} (elsewhere : other ≠ position) :
    machine.Untouched (machine.unloaded position) other := by
  obtain ⟨front, back, middleBack, middleFront⟩ := unloading_inRange inRange
  exact (untouched_transferred shaped front back elsewhere elsewhere).trans
    (untouched_transferred (shaped.transferred _ _) middleBack middleFront elsewhere elsewhere)

theorem loops_unloaded (shaped : machine.Shaped) {needle : Needle}
    (inRange : needle.position < machine.needleCount) :
    (machine.unloaded needle.position).loops needle = machine.gathered needle := by
  obtain ⟨side, position, slider⟩ := needle
  have middleShaped := shaped.transferred (frontSlider position) (backSlider position)
  obtain ⟨front, back, middleBack, middleFront⟩ := unloading_inRange inRange
  have first := loops_moved shaped front back
  have second := loops_moved middleShaped middleBack middleFront
  simp only [unloaded, loops_transferred, second, first]
  cases slider <;> cases side <;>
    simp [gathered, frontSlider, backSlider, Needle.front, Needle.back]

theorem Sound.unloaded (sound : machine.Sound) (inRange : position < machine.needleCount) :
    machine.Rearranged (machine.unloaded position) := by
  obtain ⟨front, back, middleBack, middleFront⟩ := unloading_inRange inRange
  have first := sound.transferred (by simp [frontSlider, backSlider]) front back
  exact first.trans
    (first.sound.transferred (by simp [backSlider, Needle.front]) middleBack middleFront)

theorem sameSetting_unloaded (machine : Machine) (position : Nat) :
    machine.SameSetting (machine.unloaded position) :=
  (sameSetting_transferred machine _ _).trans (sameSetting_transferred _ _ _)

structure UnloadedAt (machine next : Machine) (positions : List Nat) : Prop where
  rearranged : machine.Rearranged next
  setting : machine.SameSetting next
  loops : ∀ needle : Needle, next.loops needle =
    if needle.position ∈ positions then machine.gathered needle else machine.loops needle

theorem unload_run_all (sound : machine.Sound) (straight : machine.racking = .zero)
    {positions : List Nat} (once : positions.Nodup)
    (inRange : ∀ position ∈ positions, position < machine.needleCount) :
    ∃ lines next, Program.runAll (positions.flatMap unload) machine = .ok lines next ∧
      machine.UnloadedAt next positions := by
  induction positions generalizing machine with
  | nil =>
      exact ⟨[], machine, rfl, .refl sound, .refl machine, fun needle => by simp⟩
  | cons position rest ih =>
      obtain ⟨absent, restOnce⟩ := List.nodup_cons.mp once
      have here : position < machine.needleCount := inRange position (by simp)
      have rearranged := sound.unloaded here
      obtain ⟨firstLines, first⟩ := unload_run sound.shaped straight here
      obtain ⟨laterLines, last, later, remaining⟩ := ih rearranged.sound
        (racking_unloaded.trans straight) restOnce fun other member => by
          rw [needleCount_unloaded]
          exact inRange other (by simp [member])
      refine ⟨_, last, runAll_append first later, rearranged.trans remaining.rearranged,
        (sameSetting_unloaded machine position).trans remaining.setting, fun needle => ?_⟩
      rw [remaining.loops]
      by_cases isHere : needle.position = position
      · subst isHere
        rw [if_neg absent, if_pos (by simp), loops_unloaded sound.shaped here]
      · have apart := untouched_unloaded sound.shaped here isHere
        rw [gathered_congr apart.loops, apart.loops needle rfl]
        by_cases inRest : needle.position ∈ rest
        · rw [if_pos inRest, if_pos (by simp [inRest])]
        · rw [if_neg inRest, if_neg (by simp [isHere, inRest])]

theorem gathered_outside (shaped : machine.Shaped) {needle : Needle}
    (outside : ¬needle.position < machine.needleCount) : machine.gathered needle = [] := by
  have noLoops : ∀ other : Needle, other.position = needle.position → machine.loops other = [] :=
    fun other here => loops_outside shaped (by rwa [here])
  rw [gathered, noLoops (.front needle.position) rfl, noLoops (.back needle.position) rfl,
    noLoops (frontSlider needle.position) rfl, noLoops (backSlider needle.position) rfl]
  split <;> rfl

theorem checkInService_eq_error {system : CarrierSystem} {carriers : CarrierSet} {fault : Fault}
    (refused : system.checkInService carriers = .error fault) :
    fault.code = "UNKNOWN_CARRIER" ∨ fault.code = "CARRIER_NOT_IN_SERVICE" := by
  obtain ⟨id, _, here⟩ := forM_eq_error refused
  rcases bind_eq_error.mp here with missing | ⟨carrier, _, idle⟩
  · rw [CarrierSystem.carrier] at missing
    split at missing
    · cases missing
    · cases missing
      exact Or.inl rfl
  · split at idle
    · cases idle
      exact Or.inr rfl
    · cases idle

theorem checkWork_eq_error (clear : machine.slidersAreClear = true) {work : Work}
    {needle : Needle} {fault : Fault} (refused : machine.checkWork work needle = .error fault) :
    fault.code = "NEEDLE_OUT_OF_RANGE" ∨ fault.code = "SLIDER_OPERATION" := by
  rcases bind_eq_error.mp refused with outside | ⟨_, _, later⟩
  · rcases bind_eq_error.mp outside with missing | ⟨_, _, impossible⟩
    · rw [Bed.loopsAt] at missing
      split at missing
      · cases missing
      · cases missing
        exact Or.inl rfl
    · exact absurd impossible pure_ne_error
  · cases isSlider : needle.slider with
    | true =>
        rw [isSlider] at later
        cases later
        exact Or.inr rfl
    | false =>
        rw [isSlider, clear] at later
        cases later

theorem checkMaking_ne_slidersInUse (clear : machine.slidersAreClear = true) {work : Work}
    {needle : Needle} {carriers : CarrierSet} {fault : Fault}
    (refused : machine.checkMaking work needle carriers = .error fault) :
    fault.code ≠ "SLIDERS_IN_USE" := by
  rcases bind_eq_error.mp refused with early | ⟨_, _, late⟩
  · rcases checkWork_eq_error clear early with code | code <;> simp [code]
  · rcases checkInService_eq_error late with code | code <;> simp [code]

structure SlidersUnused (machine : Machine) : Prop where
  knit : ∀ needle carriers fault next, knit needle carriers machine = .error fault next →
    fault.code ≠ "SLIDERS_IN_USE"
  tuck : ∀ needle carriers fault next, tuck needle carriers machine = .error fault next →
    fault.code ≠ "SLIDERS_IN_USE"
  drop : ∀ needle fault next, drop needle machine = .error fault next →
    fault.code ≠ "SLIDERS_IN_USE"

theorem slidersUnused_of_clear (shaped : machine.Shaped) (known : machine.Known)
    (clear : machine.slidersAreClear = true) : machine.SlidersUnused where
  knit needle carriers fault next refused := by
    have decided := decided_knit shaped known needle carriers
    rw [refused] at decided
    exact checkMaking_ne_slidersInUse clear decided.of_error.1
  tuck needle carriers fault next refused := by
    have decided := decided_tuck shaped needle carriers
    rw [refused] at decided
    exact checkMaking_ne_slidersInUse clear decided.of_error.1
  drop needle fault next refused := by
    have decided := decided_drop shaped needle
    rw [refused] at decided
    rcases checkWork_eq_error clear decided.of_error.1 with code | code <;> simp [code]

theorem isRackOrXfer_unloadAll (positions : List Nat) :
    ∀ operation ∈ unloadAll positions, operation.isRackOrXfer = true := by
  intro operation member
  rcases List.mem_cons.mp member with rfl | transfers
  · rfl
  · obtain ⟨position, _, here⟩ := List.mem_flatMap.mp transfers
    rcases List.mem_cons.mp here with rfl | last
    · rfl
    · rw [List.mem_singleton.mp last]
      rfl

theorem apply_rack_zero (valid : machine.spec.check = .ok ()) :
    (Operation.rack .zero).apply machine =
      .ok (machine.rackLines .zero) { machine with racking := .zero } := by
  rw [Operation.apply, Operation.emitRack, run_bind_ok (setRacking_done (checkRacking_zero valid))]
  rfl

structure Unloaded (machine next : Machine) : Prop where
  clear : next.slidersAreClear = true
  loops : ∀ needle, next.loops needle = machine.gathered needle
  holds : ∀ loop, next.Holds loop ↔ machine.Holds loop
  setting : machine.SameSetting next
  unused : next.SlidersUnused

/-- From every reachable state the sliders can be emptied by racking and transfers alone. -/
theorem exists_unloading (reachable : machine.Reachable) :
    ∃ operations lines next, (∀ operation ∈ operations, operation.isRackOrXfer = true) ∧
      Program.runAll operations machine = .ok lines next ∧ machine.Unloaded next := by
  have sound := reachable.sound
  let straight : Machine := { machine with racking := .zero }
  have undisturbed : machine.Undisturbed straight := ⟨rfl, rfl, rfl, rfl, rfl, rfl⟩
  have straightSound := (undisturbed.rearranged sound).sound
  have inRange : ∀ position ∈ List.range machine.needleCount, position < straight.needleCount :=
    fun position member => List.mem_range.mp member
  obtain ⟨lines, next, ran, unloaded⟩ :=
    unload_run_all straightSound rfl List.nodup_range inRange
  have loops : ∀ needle, next.loops needle = machine.gathered needle := by
    intro needle
    have same : straight.gathered needle = machine.gathered needle :=
      gathered_congr fun other _ => undisturbed.loops other
    rw [unloaded.loops, same, undisturbed.loops]
    by_cases inRange : needle.position < machine.needleCount
    · rw [if_pos (List.mem_range.mpr inRange)]
    · rw [if_neg (by rwa [List.mem_range]), gathered_outside sound.shaped inRange,
        loops_outside sound.shaped inRange]
  have clear : next.slidersAreClear = true := by
    refine slidersAreClear_iff.mpr fun needle isSlider => ?_
    rw [loops, gathered, isSlider]
  have nextSound := unloaded.rearranged.sound
  refine ⟨unloadAll (List.range machine.needleCount), _, next, isRackOrXfer_unloadAll _,
    runAll_cons_eq_ok.mpr ⟨_, straight, lines, apply_rack_zero sound.shaped.valid, ran, rfl⟩,
    clear, loops, ?_, ?_, slidersUnused_of_clear nextSound.shaped nextSound.known clear⟩
  · intro loop
    rw [unloaded.rearranged.holds, (undisturbed.rearranged sound).holds]
  · have straightened : machine.SameSetting straight := ⟨rfl, rfl, rfl, rfl, rfl, rfl, rfl⟩
    exact straightened.trans unloaded.setting

def rackable : Spec := { twoNeedles with maxRack := .ofNat 1 }

def loadedSliders : Machine :=
  (initial rackable).afterAll [.apply (.inhook ⟨1⟩), .apply (.tuck (.front 0) [⟨1⟩] none),
    .apply (.tuck (.back 1) [⟨1⟩] none), .apply (.xfer (.front 0) (backSlider 0)),
    .apply (.align 0 1), .apply (.xfer (.back 1) (frontSlider 0))]

theorem exists_unloading_loadedSliders :
    loadedSliders.loops (frontSlider 0) = [⟨1⟩] ∧ loadedSliders.loops (backSlider 0) = [⟨0⟩] ∧
      ∃ operations lines next, (∀ operation ∈ operations, operation.isRackOrXfer = true) ∧
        Program.runAll operations loadedSliders = .ok lines next ∧ loadedSliders.Unloaded next :=
  have valid : rackable.check = .ok () := by
    simp only [Spec.check, throw_bind, refusal_eq_ok, pure_eq_ok]
    decide +kernel
  ⟨by decide +kernel, by decide +kernel, exists_unloading
    ((Reachable.start (by decide) (of_eq_ok.mpr ⟨valid, rfl⟩)).afterAll _)⟩

end Machine

end VBed
