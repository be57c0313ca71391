import VBed.Proofs.Positions

/-!
The record of loop presence. Work puts the positions it touches on record as they are; peeling moves
loops across without a record. What both keep is that a position is on record for some side exactly
when it holds loops, and for both sides when both of its needles hold loops. A reset therefore never
finds loops lost or a return blocked.
-/

namespace VBed

def Fault.LosesTrack (fault : Fault) : Prop :=
  fault.code = "LOST_LOOPS" ∨ fault.code = "BLOCKED_RETURN"

namespace Machine

variable {machine next last : Machine}

structure Tracked (machine : Machine) : Prop where
  any : ∀ position, (machine.onRecord position).any = (machine.presence position).any
  both : ∀ position, machine.presence position = ⟨true, true⟩ →
    machine.onRecord position = ⟨true, true⟩

theorem Tracked.of_positions (tracked : machine.Tracked)
    (positions : ∀ position, machine.Untouched next position ∨ next.UpToDate position) :
    next.Tracked := by
  constructor
  · intro position
    rcases positions position with same | upToDate
    · rw [same.record, same.presence, tracked.any]
    · rw [upToDate]
  · intro position occupied
    rcases positions position with same | upToDate
    · rw [same.record, tracked.both position (by rw [← same.presence, occupied])]
    · rw [upToDate, occupied]

theorem isEmpty_append (first second : List LoopId) :
    (first ++ second).isEmpty = (first.isEmpty && second.isEmpty) := by
  cases first <;> rfl

theorem presence_crossed (shaped : machine.Shaped) {needle : Needle}
    (ordinary : needle.slider = false) (inRange : needle.position < machine.needleCount) :
    ((machine.moved needle needle.opposite).presence needle.position).any =
        (machine.presence needle.position).any ∧
      (machine.moved needle needle.opposite).presence needle.position ≠ ⟨true, true⟩ := by
  have oppositeInRange : needle.opposite.position < machine.needleCount := inRange
  have loops := loops_moved shaped inRange oppositeInRange
  cases needle with
  | mk side position slider =>
      cases ordinary
      cases side with
      | front =>
          rw [presence_eq, presence_eq, loops, loops]
          simp [Needle.front, Needle.back, Needle.opposite, Side.opposite, Presence.any,
            isEmpty_append, Bool.or_comm]
      | back =>
          rw [presence_eq, presence_eq, loops, loops]
          simp [Needle.front, Needle.back, Needle.opposite, Side.opposite, Presence.any,
            isEmpty_append]

theorem Tracked.crossedOnce (tracked : machine.Tracked) (shaped : machine.Shaped)
    {needle : Needle} (ordinary : needle.slider = false)
    (inRange : needle.position < machine.needleCount) :
    (machine.moved needle needle.opposite).Tracked := by
  have sameRecord : ∀ position, (machine.moved needle needle.opposite).onRecord position =
      machine.onRecord position := onRecord_congr (record_moved needle needle.opposite)
  have oppositeInRange : needle.opposite.position < machine.needleCount := inRange
  obtain ⟨sameAny, notBoth⟩ := presence_crossed shaped ordinary inRange
  have elsewhere : ∀ position, position ≠ needle.position →
      (machine.moved needle needle.opposite).presence position = machine.presence position :=
    fun position differs =>
      (untouched_moved shaped inRange oppositeInRange differs differs).presence
  constructor
  · intro position
    rw [sameRecord, tracked.any]
    by_cases here : position = needle.position
    · rw [here, sameAny]
    · rw [elsewhere position here]
  · intro position occupied
    by_cases here : position = needle.position
    · rw [here] at occupied
      exact absurd occupied notBoth
    · rw [elsewhere position here] at occupied
      rw [sameRecord, tracked.both position occupied]

theorem Tracked.returnedOnce (tracked : machine.Tracked) (shaped : machine.Shaped)
    {start : Needle} (inRange : start.position < machine.needleCount) :
    (machine.transferred start start.opposite).Tracked := by
  have oppositeInRange : start.opposite.position < machine.needleCount := inRange
  refine tracked.of_positions fun position => ?_
  by_cases here : position = start.position
  · rw [here]
    exact Or.inr (upToDate_transferred shaped inRange oppositeInRange).1
  · exact Or.inl (untouched_transferred shaped inRange oppositeInRange here here)

theorem Tracked.straightened (tracked : machine.Tracked) (needles : List Needle) :
    (machine.straightened needles).Tracked :=
  tracked.of_positions fun position =>
    Or.inl ((machine.straightened_undisturbed needles).untouched position)

theorem Effect.tracked (sound : machine.Sound) (tracked : machine.Tracked) {call : Call}
    {lines : List Line} (effect : Effect machine call lines next) : next.Tracked := by
  cases crosses : call.peelsOrResets with
  | false =>
      refine tracked.of_positions fun position => ?_
      rcases effect.positions sound crosses position with same | ⟨_, upToDate⟩
      · exact Or.inl same
      · exact Or.inr upToDate
  | true =>
      rcases effect.crossings crosses with
        ⟨plan, sheets, _, fits, left⟩ | ⟨plan, sheets, chosen, returns, _, fits, planned, left⟩
      · rw [left]
        exact peeled_preserves Tracked
          (fun _ _ shaped ordinary inRange held => held.crossedOnce shaped ordinary inRange)
          sound.shaped fits (tracked.straightened _)
      · rw [left]
        exact restored_preserves Tracked
          (fun _ _ shaped ordinary inRange held => held.crossedOnce shaped ordinary inRange)
          (fun _ _ shaped _ inRange held => held.returnedOnce shaped inRange)
          sound.shaped fits planned (tracked.straightened _)

/-- The presence that a plan projects is tracked by the record just as the present one is. -/
theorem Tracked.projected (tracked : machine.Tracked) {plan : PeelPlan} {sheets : List Nat}
    (fits : plan.Fits machine sheets) (position : Nat) :
    (machine.onRecord position).any = (plan.projected machine position).any ∧
      (plan.projected machine position = ⟨true, true⟩ →
        machine.onRecord position = ⟨true, true⟩) := by
  -- Only needles with loops are moved, so a position that the plan flips was on record already.
  have occupied : ∀ needle ∈ plan.moves, needle = .front position ∨ needle = .back position →
      (machine.onRecord position).any = true := by
    intro needle moves isHere
    have held := fits.held needle moves
    rw [tracked.any, presence_eq, Presence.any]
    rcases isHere with rfl | rfl <;> simp [held]
  rw [PeelPlan.projected]
  split
  · rename_i moves
    exact ⟨occupied _ (by simpa using moves) (Or.inl rfl), by simp⟩
  · split
    · rename_i moves
      exact ⟨occupied _ (by simpa using moves) (Or.inr rfl), by simp⟩
    · exact ⟨tracked.any position, tracked.both position⟩

/-- Where the record tracks the loops, a return is refused only for loops on record on both
needles. -/
theorem returnStart_eq_error {recorded current : Presence} (sameAny : recorded.any = current.any)
    (both : current = ⟨true, true⟩ → recorded = ⟨true, true⟩) {position : Nat} {fault : Fault}
    (refused : returnStart? recorded current position = .error fault) :
    recorded = ⟨true, true⟩ ∧ fault = .unseparatedLoops (.front position) (.back position) := by
  obtain ⟨recordedFront, recordedBack⟩ := recorded
  obtain ⟨currentFront, currentBack⟩ := current
  cases recordedFront <;> cases recordedBack <;> cases currentFront <;> cases currentBack <;>
    simp_all [returnStart?, returnTo?, Presence.any]

theorem checkGauge_eq_error {gauge : Nat} {fault : Fault}
    (refused : checkGauge gauge = .error fault) : fault = .gaugeOutOfRange gauge maxGauge := by
  rw [checkGauge] at refused
  split at refused
  · cases refused
    rfl
  · cases refused

theorem checkSheet_eq_error {sheet gauge : Nat} {fault : Fault}
    (refused : checkSheet sheet gauge = .error fault) :
    fault = .gaugeOutOfRange gauge maxGauge ∨ fault = .sheetOutOfRange sheet gauge := by
  rw [checkSheet, bind_eq_error] at refused
  rcases refused with early | ⟨_, _, late⟩
  · exact Or.inl (checkGauge_eq_error early)
  · split at late
    · cases late
      exact Or.inr rfl
    · cases late

theorem checkClear_eq_error {needle : Needle} {fault : Fault}
    (refused : machine.checkClear needle = .error fault) :
    fault.code = "NEEDLE_OUT_OF_RANGE" ∨ fault.code = "NEEDLE_NOT_CLEAR" := by
  rw [checkClear, bind_eq_error] at refused
  rcases refused with outside | ⟨clear, _, occupied⟩
  · rw [isClear, Bed.isClear, bind_eq_error] at outside
    rcases outside with missing | ⟨_, _, impossible⟩
    · rw [Bed.loopsAt] at missing
      split at missing
      · cases missing
      · cases missing
        exact Or.inl rfl
    · exact absurd impossible pure_ne_error
  · cases clear
    · cases occupied
      exact Or.inr rfl
    · cases occupied

theorem checkCrossings_eq_error {needles : List Needle} {fault : Fault}
    (refused : machine.checkCrossings needles = .error fault) :
    fault.code = "NEEDLE_OUT_OF_RANGE" ∨ fault.code = "NEEDLE_NOT_CLEAR" := by
  obtain ⟨needle, _, here⟩ := forM_eq_error refused
  rcases bind_eq_error.mp here with first | ⟨_, _, second⟩
  · exact checkClear_eq_error first
  · exact checkClear_eq_error second

theorem checkSheet_keepsTrack {sheet gauge : Nat} {fault : Fault}
    (refused : checkSheet sheet gauge = .error fault) : ¬fault.LosesTrack := by
  rcases checkSheet_eq_error refused with rfl | rfl
  · simp [Fault.LosesTrack, Fault.code]
  · simp [Fault.LosesTrack, Fault.code]

theorem peelPlan_keepsTrack {sheet : Nat} {fault : Fault}
    (refused : machine.peelPlan sheet = .error fault) : ¬fault.LosesTrack := by
  rcases bind_eq_error.mp refused with sheetRefused | ⟨_, _, impossible⟩
  · exact checkSheet_keepsTrack sheetRefused
  · exact absurd impossible pure_ne_error

theorem checkSeparable_keepsTrack {sheets : List Nat} {position : Nat} {fault : Fault}
    (refused : machine.checkSeparable sheets position = .error fault) : ¬fault.LosesTrack := by
  simp only [checkSeparable] at refused
  split at refused
  · cases refused
    simp [Fault.LosesTrack, Fault.code]
  · split at refused
    · cases refused
      simp [Fault.LosesTrack, Fault.code]
    · cases refused

theorem peelPlanAll_keepsTrack {sheets : List Nat} {fault : Fault}
    (refused : machine.peelPlanAll sheets = .error fault) : ¬fault.LosesTrack := by
  simp only [peelPlanAll] at refused
  split at refused
  · cases refused
    simp [Fault.LosesTrack, Fault.code]
  · rcases bind_eq_error.mp refused with sheetRefused | ⟨_, _, later⟩
    · obtain ⟨sheet, _, here⟩ := forM_eq_error sheetRefused
      exact checkSheet_keepsTrack here
    · rcases bind_eq_error.mp later with inseparable | ⟨_, _, impossible⟩
      · obtain ⟨position, _, here⟩ := forM_eq_error inseparable
        exact checkSeparable_keepsTrack here
      · exact absurd impossible pure_ne_error

theorem checkCrossings_keepsTrack {needles : List Needle} {fault : Fault}
    (refused : machine.checkCrossings needles = .error fault) : ¬fault.LosesTrack := by
  rcases checkCrossings_eq_error refused with outside | occupied
  · simp [Fault.LosesTrack, outside]
  · simp [Fault.LosesTrack, occupied]

theorem Tracked.returnPlan_keepsTrack (tracked : machine.Tracked) {plan : PeelPlan}
    {sheets : List Nat} (fits : plan.Fits machine sheets) {chosen : Nat → Bool} {fault : Fault}
    (refused : machine.returnPlan plan chosen = .error fault) : ¬fault.LosesTrack := by
  rcases bind_eq_error.mp refused with here | ⟨_, _, impossible⟩
  · obtain ⟨position, _, stuck⟩ := mapM_eq_error here
    obtain ⟨sameAny, both⟩ := tracked.projected fits position
    have same := (returnStart_eq_error sameAny both stuck).2
    simp [Fault.LosesTrack, Fault.code, same]
  · exact absurd impossible pure_ne_error

theorem Tracked.resetBy_keepsTrack (tracked : machine.Tracked) (shaped : machine.Shaped)
    {plan : PeelPlan} {sheets : List Nat} (fits : plan.Fits machine sheets) {active : String}
    {chosen : Nat → Bool} {fault : Fault}
    (refused : resetBy plan active chosen machine = .error fault next) : ¬fault.LosesTrack := by
  rcases resetBy_run shaped fits active chosen with
    ⟨reason, failed, planned | ⟨returns, _, checked⟩⟩ | ⟨_, _, _, ran⟩
  · rw [failed] at refused
    cases refused
    exact tracked.returnPlan_keepsTrack fits planned
  · rw [failed] at refused
    cases refused
    exact checkCrossings_keepsTrack checked
  · rw [ran] at refused
    cases refused

theorem Tracked.reset_keepsTrack (tracked : machine.Tracked) (shaped : machine.Shaped)
    {sheet : Nat} {fault : Fault} (refused : reset sheet machine = .error fault next) :
    ¬fault.LosesTrack := by
  rw [reset, run_get_bind] at refused
  cases planned : machine.peelPlan sheet with
  | error reason =>
      rw [run_bind_error (ask_error planned)] at refused
      cases refused
      exact peelPlan_keepsTrack planned
  | ok plan =>
      rw [run_bind_ok (ask_ok planned)] at refused
      exact tracked.resetBy_keepsTrack shaped (peelPlan_fits planned) refused

theorem Tracked.resetAll_keepsTrack (tracked : machine.Tracked) (shaped : machine.Shaped)
    {sheets : List Nat} {fault : Fault} (refused : resetAll sheets machine = .error fault next) :
    ¬fault.LosesTrack := by
  rw [resetAll, run_get_bind] at refused
  cases planned : machine.peelPlanAll sheets with
  | error reason =>
      rw [run_bind_error (ask_error planned)] at refused
      cases refused
      exact peelPlanAll_keepsTrack planned
  | ok plan =>
      rw [run_bind_ok (ask_ok planned)] at refused
      exact tracked.resetBy_keepsTrack shaped (peelPlanAll_fits planned) refused

theorem Tracked.after (tracked : machine.Tracked) (sound : machine.Sound) (call : Call) :
    (call.after machine).Tracked := by
  rcases after_cases sound.shaped sound.known call with unchanged | ⟨lines, effect⟩
  · rw [unchanged]
    exact tracked
  · exact effect.tracked sound tracked

theorem onRecord_initial (spec : Spec) (position : Nat) :
    (initial spec).onRecord position = (initial spec).presence position := by
  have empty : (initial spec).presence position = ⟨false, false⟩ := by
    rw [presence_eq, loops_initial, loops_initial]
    rfl
  rw [empty, onRecord, initial, Array.getD_eq_getD_getElem?, Array.getElem?_replicate]
  split <;> rfl

theorem Reachable.tracked (reachable : machine.Reachable) : machine.Tracked := by
  induction reachable with
  | start _ empty =>
      obtain ⟨_, rfl⟩ := of_eq_ok.mp empty
      have upToDate := onRecord_initial
      exact ⟨fun position => by rw [upToDate], fun position occupied => by rw [upToDate, occupied]⟩
  | step before call ih => exact ih.after before.sound call

theorem upToDate_run (sound : machine.Sound) (upToDate : ∀ position, machine.UpToDate position)
    {calls : List Call} (plain : ∀ call ∈ calls, call.peelsOrResets = false) (position : Nat) :
    (machine.afterAll calls).UpToDate position := by
  induction calls generalizing machine with
  | nil => exact upToDate position
  | cons call rest ih =>
      have next : ∀ other, (call.after machine).UpToDate other := by
        intro other
        rcases after_cases sound.shaped sound.known call with unchanged | ⟨lines, effect⟩
        · rw [unchanged]
          exact upToDate other
        · rcases effect.positions sound (plain call (by simp)) other with same | ⟨_, current⟩
          · exact (upToDate other).untouched same
          · exact current
      exact ih (sound.after call).sound next fun other member => plain other (by simp [member])

theorem recordAt_ok {position : Nat} (inRange : position < machine.needleCount) :
    machine.recordAt position = .ok (machine.onRecord position) := by
  rw [recordAt, checkPosition, if_neg (Nat.not_le_of_lt inRange)]
  rfl

theorem presenceAt_ok (shaped : machine.Shaped) {position : Nat}
    (inRange : position < machine.needleCount) :
    machine.presenceAt position = .ok (machine.presence position) := by
  rw [presenceAt, then_eq_ok]
  exact ⟨(checkNeedle_eq_ok shaped).mpr inRange, rfl⟩

/-- The record tracks the loops at every position, and no reset loses track of them. -/
structure RecordTracks (machine : Machine) : Prop where
  positions : ∀ position < machine.needleCount, ∃ recorded present,
    machine.recordAt position = .ok recorded ∧ machine.presenceAt position = .ok present ∧
      recorded.any = present.any ∧ (present = ⟨true, true⟩ → recorded = ⟨true, true⟩)
  reset : ∀ sheet fault next, reset sheet machine = .error fault next → ¬fault.LosesTrack
  resetAll : ∀ sheets fault next, resetAll sheets machine = .error fault next → ¬fault.LosesTrack

/-- After any calls from the empty machine the record tracks the loops; it equals their presence as
long as nothing is peeled or reset. -/
theorem recordTracks_afterAll {spec : Spec} {start : Machine}
    (word : spec.needleCount < Text.wordCount) (empty : Machine.of spec = .ok start)
    (calls : List Call) :
    (start.afterAll calls).RecordTracks ∧
      ((∀ call ∈ calls, call.peelsOrResets = false) →
        ∀ position < (start.afterAll calls).needleCount,
          (start.afterAll calls).recordAt position =
            (start.afterAll calls).presenceAt position) := by
  have starting := Reachable.start word empty
  have reachable := starting.afterAll calls
  have shaped := reachable.sound.shaped
  have tracked := reachable.tracked
  refine ⟨⟨?_, ?_, ?_⟩, ?_⟩
  · intro position inRange
    exact ⟨_, _, recordAt_ok inRange, presenceAt_ok shaped inRange, tracked.any position,
      tracked.both position⟩
  · exact fun sheet fault next refused => tracked.reset_keepsTrack shaped refused
  · exact fun sheets fault next refused => tracked.resetAll_keepsTrack shaped refused
  · intro plain position inRange
    have fresh : ∀ other, start.UpToDate other := by
      obtain ⟨_, rfl⟩ := of_eq_ok.mp empty
      exact onRecord_initial spec
    rw [recordAt_ok inRange, presenceAt_ok shaped inRange,
      upToDate_run starting.sound fresh plain]

theorem recordTracks_tucked_peeled :
    let tucked := (initial twoNeedles).afterAll [.apply (.inhook ⟨1⟩),
      .apply (.tuck (.front 0) [⟨1⟩] none), .apply (.tuck (.front 1) [⟨1⟩] none)]
    let peeled := (initial twoNeedles).afterAll [.apply (.inhook ⟨1⟩),
      .apply (.tuck (.front 0) [⟨1⟩] none), .apply (.tuck (.front 1) [⟨1⟩] none),
      .apply (.gauge 2), .apply (.peel 0)]
    tucked.recordAt 1 = tucked.presenceAt 1 ∧
      peeled.onRecord 1 = ⟨true, false⟩ ∧ peeled.presence 1 = ⟨false, true⟩ ∧
        peeled.RecordTracks :=
  ⟨(recordTracks_afterAll (by decide) (rfl : Machine.of twoNeedles = .ok _) _).2 (by decide) 1
      (by decide +kernel),
    by decide +kernel, by decide +kernel,
    (recordTracks_afterAll (by decide) (rfl : Machine.of twoNeedles = .ok _) _).1⟩

end Machine

end VBed
