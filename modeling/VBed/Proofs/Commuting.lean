import VBed.Proofs.Restoring
import VBed.Proofs.Transfers

/-!
Transfers that share no place on a bed can change places in time. Neither one looks at a needle or
slider that the other one moves loops from or to. They may share a position, one on each bed; then
both put it on record, and whichever is later finds there what both leave.
-/

namespace VBed

def answered {σ α : Type} : EStateM.Result Fault σ α → Except Fault α
  | .ok answer _ => .ok answer
  | .error fault _ => .error fault

namespace Machine

variable {machine next : Machine} {start target otherStart otherTarget : Needle}

def ShareNoPlace (start target otherStart otherTarget : Needle) : Prop :=
  ∀ needle ∈ [start, target], ∀ other ∈ [otherStart, otherTarget],
    needle.side = other.side → needle.position ≠ other.position

instance : Decidable (ShareNoPlace start target otherStart otherTarget) :=
  inferInstanceAs (Decidable (∀ _ ∈ _, ∀ _ ∈ _, _))

theorem ShareNoPlace.symm (apart : ShareNoPlace start target otherStart otherTarget) :
    ShareNoPlace otherStart otherTarget start target :=
  fun other otherMember needle member side same =>
    apart needle member other otherMember side.symm same.symm

structure OnBeds (machine : Machine) (start target : Needle) : Prop where
  startInRange : start.position < machine.needleCount
  targetInRange : target.position < machine.needleCount

structure SamePlaces (machine next : Machine) (start target : Needle) : Prop where
  shaped : next.Shaped
  needleCount : next.needleCount = machine.needleCount
  racking : next.racking = machine.racking
  loops : ∀ place ∈ [start, target], ∀ needle : Needle, needle.side = place.side →
    needle.position = place.position → next.loops needle = machine.loops needle

theorem loopsAt_outside (shaped : machine.Shaped) {needle : Needle}
    (outside : ¬needle.position < machine.needleCount) :
    machine.loopsAt needle =
      .error (.needleOutOfRange (Text.signedWord needle.position) machine.needleCount) := by
  have size : (machine.bed needle.side).needleCount = machine.needleCount :=
    shaped.slots needle.side false
  have none : (machine.bed needle.side).at? needle = none := by
    rw [← Option.not_isSome_iff_eq_none, Bed.at?_isSome_iff, shaped.slots]
    exact outside
  rw [loopsAt, Bed.loopsAt, none, size]

theorem loopsAt_congr (shaped : machine.Shaped) (nextShaped : next.Shaped)
    (sameCount : next.needleCount = machine.needleCount) {needle : Needle}
    (same : next.loops needle = machine.loops needle) :
    next.loopsAt needle = machine.loopsAt needle := by
  by_cases inRange : needle.position < machine.needleCount
  · have inNext : needle.position < next.needleCount := by rwa [sameCount]
    rw [loopsAt_inRange nextShaped inNext, loopsAt_inRange shaped inRange, same]
  · have notInNext : ¬needle.position < next.needleCount := by rwa [sameCount]
    rw [loopsAt_outside nextShaped notInNext, loopsAt_outside shaped inRange, sameCount]

theorem SamePlaces.checkTransfer (shaped : machine.Shaped)
    (same : machine.SamePlaces next start target) :
    next.checkTransfer start target = machine.checkTransfer start target := by
  have loopsAt : ∀ place ∈ [start, target], ∀ needle : Needle, needle.side = place.side →
      needle.position = place.position → next.loopsAt needle = machine.loopsAt needle :=
    fun place member needle side position =>
      loopsAt_congr shaped same.shaped same.needleCount
        (same.loops place member needle side position)
  have checkNeedle : ∀ needle ∈ [start, target],
      next.checkNeedle needle = machine.checkNeedle needle := by
    intro needle member
    change (next.loopsAt needle >>= fun _ => pure ()) =
      (machine.loopsAt needle >>= fun _ => pure ())
    rw [loopsAt needle member needle rfl rfl]
  have checkClear : ∀ needle ∈ [start, target],
      next.checkClear needle = machine.checkClear needle := by
    intro needle member
    have behind : (next.bed needle.side).loopsAt needle.asSlider =
        (machine.bed needle.side).loopsAt needle.asSlider :=
      loopsAt needle member needle.asSlider rfl rfl
    rw [Machine.checkClear, Machine.checkClear, isClear, isClear, Bed.isClear, Bed.isClear, behind]
  have faces : next.faces = machine.faces := by
    funext front back
    rw [Machine.faces, Machine.faces, same.racking]
  have checkFacing : next.checkFacing start target = machine.checkFacing start target := by
    rw [Machine.checkFacing, Machine.checkFacing, faces, same.racking]
  rw [Machine.checkTransfer, Machine.checkTransfer, checkNeedle start (by simp),
    checkNeedle target (by simp), checkClear start (by simp), checkClear target (by simp),
    checkFacing]

theorem samePlaces_transferred (shaped : machine.Shaped) (onBeds : machine.OnBeds start target)
    (apart : ShareNoPlace start target otherStart otherTarget) :
    machine.SamePlaces (machine.transferred start target) otherStart otherTarget where
  shaped := shaped.transferred start target
  needleCount := needleCount_transferred start target
  racking := racking_transferred start target
  loops place member needle side position := by
    have notStart : needle ≠ start := by
      rintro rfl
      exact apart needle (by simp) place member side position
    have notTarget : needle ≠ target := by
      rintro rfl
      exact apart needle (by simp) place member side position
    rw [loops_exchanged shaped onBeds.startInRange onBeds.targetInRange, if_neg notTarget,
      if_neg notStart]

theorem SameSetting.symm (same : machine.SameSetting next) : next.SameSetting machine :=
  ⟨same.spec.symm, same.direction.symm, same.carriers.symm, same.graph.symm, same.gauge.symm,
    same.sheet.symm, same.layers.symm⟩

theorem machine_ext (setting : machine.SameSetting next) (racking : next.racking = machine.racking)
    (beds : ∀ side, next.bed side = machine.bed side) (record : next.record = machine.record) :
    next = machine := by
  obtain ⟨spec, direction, carriers, graph, gauge, sheet, layers⟩ := setting
  have front : next.frontBed = machine.frontBed := beds .front
  have back : next.backBed = machine.backBed := beds .back
  cases next
  cases machine
  simp_all

theorem onRecord_transferred (shaped : machine.Shaped) (onBeds : machine.OnBeds start target)
    (position : Nat) :
    (machine.transferred start target).onRecord position =
      if position ∈ [start.position, target.position] then
        (machine.transferred start target).presence position
      else machine.onRecord position := by
  obtain ⟨startInRange, targetInRange⟩ := onBeds
  have upToDate := upToDate_transferred shaped startInRange targetInRange
  simp only [List.mem_cons, List.not_mem_nil, or_false]
  split
  · rename_i named
    rcases named with rfl | rfl
    · exact upToDate.1
    · exact upToDate.2
  · rename_i notNamed
    rw [not_or] at notNamed
    exact (untouched_transferred shaped startInRange targetInRange notNamed.1 notNamed.2).record

section Two

variable (shaped : machine.Shaped) (first : machine.OnBeds start target)
  (second : machine.OnBeds otherStart otherTarget)

include shaped first second

theorem onRecord_twice (position : Nat) :
    ((machine.transferred start target).transferred otherStart otherTarget).onRecord position =
      if position ∈
          [start.position, target.position, otherStart.position, otherTarget.position] then
        ((machine.transferred start target).transferred otherStart otherTarget).presence position
      else machine.onRecord position := by
  have middle := shaped.transferred start target
  have stillOnBeds : (machine.transferred start target).OnBeds otherStart otherTarget :=
    ⟨by simpa using second.startInRange, by simpa using second.targetInRange⟩
  rw [onRecord_transferred middle stillOnBeds, onRecord_transferred shaped first]
  by_cases later : position ∈ [otherStart.position, otherTarget.position]
  · have named : position ∈
        [start.position, target.position, otherStart.position, otherTarget.position] :=
      List.mem_cons_of_mem _ (List.mem_cons_of_mem _ later)
    rw [if_pos later, if_pos named]
  · rw [if_neg later]
    simp only [List.mem_cons, List.not_mem_nil, or_false, not_or] at later
    -- What the later transfer leaves alone is still as the earlier one put it on record.
    have kept := (untouched_transferred middle stillOnBeds.startInRange stillOnBeds.targetInRange
      later.1 later.2).presence
    rw [kept]
    simp only [List.mem_cons, List.not_mem_nil, or_false, later]

variable (apart : ShareNoPlace start target otherStart otherTarget)

include apart

theorem loops_twice (needle : Needle) :
    ((machine.transferred start target).transferred otherStart otherTarget).loops needle =
      if needle = otherTarget then machine.loops otherTarget ++ machine.loops otherStart
      else if needle = otherStart then []
      else (machine.transferred start target).loops needle := by
  have same := samePlaces_transferred shaped first apart
  rw [loops_exchanged same.shaped (by simpa using second.startInRange)
      (by simpa using second.targetInRange),
    same.loops otherTarget (by simp) otherTarget rfl rfl,
    same.loops otherStart (by simp) otherStart rfl rfl]

theorem loops_comm (needle : Needle) :
    ((machine.transferred start target).transferred otherStart otherTarget).loops needle =
      ((machine.transferred otherStart otherTarget).transferred start target).loops needle := by
  have other : needle ∈ [start, target] → needle ∉ [otherStart, otherTarget] :=
    fun member otherMember => apart needle member needle otherMember rfl rfl
  rw [loops_twice shaped first second apart, loops_twice shaped second first apart.symm,
    loops_exchanged shaped first.startInRange first.targetInRange,
    loops_exchanged shaped second.startInRange second.targetInRange]
  by_cases named : needle ∈ [start, target]
  · have notNamed := other named
    simp only [List.mem_cons, List.not_mem_nil, or_false, not_or] at notNamed
    simp only [notNamed, if_false]
  · simp only [List.mem_cons, List.not_mem_nil, or_false, not_or] at named
    simp only [named, if_false]

theorem transferred_comm :
    (machine.transferred start target).transferred otherStart otherTarget =
      (machine.transferred otherStart otherTarget).transferred start target := by
  have leftShaped := (shaped.transferred start target).transferred otherStart otherTarget
  have rightShaped := (shaped.transferred otherStart otherTarget).transferred start target
  have loops := loops_comm shaped first second apart
  have sameCount : ((machine.transferred start target).transferred otherStart
      otherTarget).needleCount = ((machine.transferred otherStart otherTarget).transferred start
        target).needleCount := by simp
  have left := (sameSetting_transferred machine start target).trans
    (sameSetting_transferred _ otherStart otherTarget)
  have right := (sameSetting_transferred machine otherStart otherTarget).trans
    (sameSetting_transferred _ start target)
  refine machine_ext (right.symm.trans left) ?_ (bed_ext rightShaped leftShaped sameCount loops)
    (record_ext rightShaped leftShaped sameCount fun position => ?_)
  · simp only [racking_transferred]
  · rw [onRecord_twice shaped first second, onRecord_twice shaped second first,
      presence_congr (loops (.front position)) (loops (.back position))]
    simp only [List.mem_cons, List.not_mem_nil, or_false]
    congr 1
    ac_rfl

end Two

theorem onBeds_of_checked (shaped : machine.Shaped)
    (checked : machine.checkTransfer start target = .ok ()) : machine.OnBeds start target := by
  obtain ⟨startInRange, targetInRange, _⟩ := (checkTransfer_eq_ok shaped).mp checked
  exact ⟨startInRange, targetInRange⟩

theorem xfer_refused {fault : Fault} (refused : machine.checkTransfer start target = .error fault) :
    xfer start target machine = .error fault machine := by
  have stuck : shift start target machine = .error fault machine :=
    run_bind_error (ask_error refused)
  exact run_bind_error stuck

theorem SamePlaces.answered_xfer (shaped : machine.Shaped)
    (same : machine.SamePlaces next start target) :
    answered (xfer start target next) = answered (xfer start target machine) := by
  have checks := same.checkTransfer shaped
  cases checked : machine.checkTransfer start target with
  | error fault =>
      rw [xfer_refused checked, xfer_refused (checks.trans checked)]
      rfl
  | ok passed =>
      rw [xfer_done shaped checked, xfer_done same.shaped (checks.trans checked),
        same.loops start (by simp) start rfl rfl]
      rfl

theorem checkTransfer_after (shaped : machine.Shaped)
    (apart : ShareNoPlace start target otherStart otherTarget)
    (checked : machine.checkTransfer start target = .ok ()) :
    (machine.transferred start target).checkTransfer otherStart otherTarget =
      machine.checkTransfer otherStart otherTarget :=
  (samePlaces_transferred shaped (onBeds_of_checked shaped checked) apart).checkTransfer shaped

theorem finalState_refused {fault : Fault}
    (refused : machine.checkTransfer start target = .error fault) :
    finalState (xfer start target machine) = machine := by
  rw [xfer_refused refused]
  rfl

theorem finalState_done (shaped : machine.Shaped)
    (checked : machine.checkTransfer start target = .ok ()) :
    finalState (xfer start target machine) = machine.transferred start target := by
  rw [xfer_done shaped checked]
  rfl

theorem answered_after (shaped : machine.Shaped)
    (apart : ShareNoPlace start target otherStart otherTarget) :
    answered (xfer otherStart otherTarget (finalState (xfer start target machine))) =
      answered (xfer otherStart otherTarget machine) := by
  cases checked : machine.checkTransfer start target with
  | error fault => rw [finalState_refused checked]
  | ok passed =>
      have same := samePlaces_transferred shaped (onBeds_of_checked shaped checked) apart
      rw [finalState_done shaped checked, same.answered_xfer shaped]

theorem finalState_comm (shaped : machine.Shaped)
    (apart : ShareNoPlace start target otherStart otherTarget) :
    finalState (xfer otherStart otherTarget (finalState (xfer start target machine))) =
      finalState (xfer start target (finalState (xfer otherStart otherTarget machine))) := by
  have middle := shaped.transferred start target
  have otherMiddle := shaped.transferred otherStart otherTarget
  -- A transfer that was refused is refused again behind the other one, and one that passed passes.
  cases checked : machine.checkTransfer start target with
  | error fault =>
      cases otherChecked : machine.checkTransfer otherStart otherTarget with
      | error otherFault =>
          rw [finalState_refused checked, finalState_refused otherChecked,
            finalState_refused checked]
      | ok otherPassed =>
          have again := checkTransfer_after shaped apart.symm otherChecked
          rw [finalState_refused checked, finalState_done shaped otherChecked,
            finalState_refused (again.trans checked)]
  | ok passed =>
      have otherAgain := checkTransfer_after shaped apart checked
      cases otherChecked : machine.checkTransfer otherStart otherTarget with
      | error otherFault =>
          rw [finalState_done shaped checked, finalState_refused (otherAgain.trans otherChecked),
            finalState_refused otherChecked, finalState_done shaped checked]
      | ok otherPassed =>
          have again := checkTransfer_after shaped apart.symm otherChecked
          rw [finalState_done shaped checked, finalState_done shaped otherChecked,
            finalState_done middle (otherAgain.trans otherChecked),
            finalState_done otherMiddle (again.trans checked)]
          exact transferred_comm shaped (onBeds_of_checked shaped checked)
            (onBeds_of_checked shaped otherChecked) apart

/-- In either order both transfers have the answers that they have alone, and both orders end in the
same state. -/
structure Commute (machine : Machine) (start target otherStart otherTarget : Needle) : Prop where
  first : answered (xfer start target (finalState (xfer otherStart otherTarget machine))) =
    answered (xfer start target machine)
  second : answered (xfer otherStart otherTarget (finalState (xfer start target machine))) =
    answered (xfer otherStart otherTarget machine)
  state : finalState (xfer otherStart otherTarget (finalState (xfer start target machine))) =
    finalState (xfer start target (finalState (xfer otherStart otherTarget machine)))

theorem xfers_commute_of_reachable (reachable : machine.Reachable)
    (apart : ShareNoPlace start target otherStart otherTarget) :
    machine.Commute start target otherStart otherTarget :=
  have shaped := reachable.sound.shaped
  ⟨answered_after shaped apart.symm, answered_after shaped apart, finalState_comm shaped apart⟩

def rackedBetween : Machine :=
  (initial { rackable with needleCount := 3 }).afterAll [.apply (.inhook ⟨1⟩),
    .apply (.tuck (.front 1) [⟨1⟩] none), .apply (.tuck (.back 1) [⟨1⟩] none),
    .apply (.align 1 0)]

theorem xfers_commute_rackedBetween :
    let last := rackedBetween.afterAll [.apply (.xfer (.front 1) (.back 0)),
      .apply (.xfer (.back 1) (frontSlider 2))]
    last.loops (.back 0) = [⟨0⟩] ∧ last.loops (frontSlider 2) = [⟨1⟩] ∧
      rackedBetween.onRecord 1 = ⟨true, true⟩ ∧ last.onRecord 1 = ⟨false, false⟩ ∧
      ShareNoPlace (.front 1) (.back 0) (.back 1) (frontSlider 2) ∧
      rackedBetween.Commute (.front 1) (.back 0) (.back 1) (frontSlider 2) :=
  ⟨by decide +kernel, by decide +kernel, by decide +kernel, by decide +kernel, by decide,
    xfers_commute_of_reachable (reachable_measured (by decide) (by decide) (by decide)
      (by decide +kernel) _) (by decide)⟩

end Machine

end VBed
