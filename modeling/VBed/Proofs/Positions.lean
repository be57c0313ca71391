import VBed.Proofs.LoopIdentity

/-!
Positions that a call leaves alone. A call that neither peels nor resets changes the loops and the
record of the positions it names only, and those it names are then on record as they are.
-/

namespace VBed

namespace Call

def peelsOrResets : Call → Bool
  | apply (.peel _) => true
  | apply (.peelSheets _) => true
  | apply (.reset _) => true
  | apply (.resetSheets _) => true
  | _ => false

def named : Call → List Nat
  | apply (.knit needle _ _) => [needle.position]
  | apply (.tuck needle _ _) => [needle.position]
  | apply (.split start target _ _) => [start.position, target.position]
  | apply (.drop needle) => [needle.position]
  | apply (.xfer start target) => [start.position, target.position]
  | apply _ => []
  | record position => [position]

theorem Peels.peelsOrResets {call : Call} {machine : Machine} {plan : Machine.PeelPlan}
    (peels : call.Peels machine plan) : call.peelsOrResets = true := by
  cases call with
  | record position => exact False.elim peels
  | apply operation => cases operation <;> first | rfl | exact False.elim peels

theorem Resets.peelsOrResets {call : Call} {machine : Machine} {plan : Machine.PeelPlan}
    {chosen : Nat → Bool} (resets : call.Resets machine plan chosen) :
    call.peelsOrResets = true := by
  cases call with
  | record position => exact False.elim resets
  | apply operation => cases operation <;> first | rfl | exact False.elim resets

end Call

namespace Machine

variable {machine next last : Machine}

theorem Tuning.plain {operation : Operation} {lines : List Line}
    (tuning : Tuning machine operation lines next) :
    (Call.apply operation).peelsOrResets = false := by
  cases tuning with
  | unseen silent _ _ => cases operation <;> first | rfl | cases silent
  | racked racks _ => cases operation <;> first | rfl | cases racks
  | carried moves _ => cases operation <;> first | rfl | cases moves

theorem presence_congr {position : Nat}
    (front : next.loops (.front position) = machine.loops (.front position))
    (back : next.loops (.back position) = machine.loops (.back position)) :
    next.presence position = machine.presence position := by
  simp only [presence_eq, front, back]

theorem onRecord_recorded (shaped : machine.Shaped) {position : Nat}
    (inRange : position < machine.needleCount) (other : Nat) :
    (machine.recorded position).onRecord other =
      if other = position then machine.presence position else machine.onRecord other := by
  simp only [onRecord, recorded, Array.getD_eq_getD_getElem?, Array.getElem?_setIfInBounds]
  by_cases same : position = other
  · subst other
    simp [shaped.record, inRange]
  · simp [same, Ne.symm same]

theorem onRecord_congr (same : next.record = machine.record) (position : Nat) :
    next.onRecord position = machine.onRecord position := by
  rw [onRecord, same]
  rfl

structure Untouched (machine next : Machine) (position : Nat) : Prop where
  record : next.onRecord position = machine.onRecord position
  loops : ∀ needle : Needle, needle.position = position →
    next.loops needle = machine.loops needle

theorem Untouched.trans {position : Nat} (first : machine.Untouched next position)
    (second : next.Untouched last position) : machine.Untouched last position :=
  ⟨second.record.trans first.record,
    fun needle here => (second.loops needle here).trans (first.loops needle here)⟩

theorem Untouched.presence {position : Nat} (same : machine.Untouched next position) :
    next.presence position = machine.presence position :=
  presence_congr (same.loops _ rfl) (same.loops _ rfl)

theorem Undisturbed.untouched (same : machine.Undisturbed next) (position : Nat) :
    machine.Untouched next position :=
  ⟨onRecord_congr same.record position, fun needle _ => same.loops needle⟩

theorem untouched_recorded (shaped : machine.Shaped) {position : Nat}
    (inRange : position < machine.needleCount) {other : Nat} (elsewhere : other ≠ position) :
    machine.Untouched (machine.recorded position) other where
  record := by rw [onRecord_recorded shaped inRange, if_neg elsewhere]
  loops needle _ := loops_recorded position needle

theorem untouched_put (shaped : machine.Shaped) {needle : Needle}
    (inRange : needle.position < machine.needleCount) (held : List LoopId) {position : Nat}
    (elsewhere : position ≠ needle.position) :
    machine.Untouched (machine.put needle held) position where
  record := onRecord_congr (record_put needle held) position
  loops other here := by
    rw [loops_put shaped inRange, if_neg]
    rintro rfl
    exact elsewhere here.symm

theorem untouched_moved (shaped : machine.Shaped) {start target : Needle}
    (startInRange : start.position < machine.needleCount)
    (targetInRange : target.position < machine.needleCount) {position : Nat}
    (notStart : position ≠ start.position) (notTarget : position ≠ target.position) :
    machine.Untouched (machine.moved start target) position :=
  (untouched_put shaped startInRange [] notStart).trans
    (untouched_put (shaped.put start []) (by simpa using targetInRange) _ notTarget)

theorem untouched_transferred (shaped : machine.Shaped) {start target : Needle}
    (startInRange : start.position < machine.needleCount)
    (targetInRange : target.position < machine.needleCount) {position : Nat}
    (notStart : position ≠ start.position) (notTarget : position ≠ target.position) :
    machine.Untouched (machine.transferred start target) position := by
  have moved := shaped.moved start target
  refine (untouched_moved shaped startInRange targetInRange notStart notTarget).trans ?_
  refine (untouched_recorded moved (by simpa using startInRange) notStart).trans ?_
  exact untouched_recorded (moved.recorded start.position) (by simpa using targetInRange) notTarget

theorem untouched_made (shaped : machine.Shaped) {needle : Needle}
    (inRange : needle.position < machine.needleCount) (fed : CarrierSystem) (yarns : List Yarn)
    (kept parents : List LoopId) {position : Nat} (elsewhere : position ≠ needle.position) :
    machine.Untouched ((machine.made needle fed yarns kept parents).recorded needle.position)
      position := by
  have made : machine.Untouched (machine.made needle fed yarns kept parents) position := by
    refine ⟨onRecord_congr (record_put needle _) position, fun other here => ?_⟩
    rw [loops_made shaped inRange, if_neg]
    rintro rfl
    exact elsewhere here.symm
  exact made.trans (untouched_recorded (shaped.made needle fed yarns kept parents)
    (by simpa using inRange) elsewhere)

def UpToDate (machine : Machine) (position : Nat) : Prop :=
  machine.onRecord position = machine.presence position

theorem upToDate_recorded (shaped : machine.Shaped) {position : Nat}
    (inRange : position < machine.needleCount) : (machine.recorded position).UpToDate position := by
  rw [UpToDate, onRecord_recorded shaped inRange, if_pos rfl, presence_recorded]

theorem UpToDate.untouched {position : Nat} (upToDate : machine.UpToDate position)
    (same : machine.Untouched next position) : next.UpToDate position := by
  rw [UpToDate, same.record, upToDate, same.presence]

theorem upToDate_transferred (shaped : machine.Shaped) {start target : Needle}
    (startInRange : start.position < machine.needleCount)
    (targetInRange : target.position < machine.needleCount) :
    (machine.transferred start target).UpToDate start.position ∧
      (machine.transferred start target).UpToDate target.position := by
  have moved := shaped.moved start target
  have movedStart : start.position < (machine.moved start target).needleCount := by
    simpa using startInRange
  have movedTarget : target.position < ((machine.moved start target).recorded
      start.position).needleCount := by simpa using targetInRange
  have first := upToDate_recorded moved movedStart
  have second : (machine.transferred start target).UpToDate target.position :=
    upToDate_recorded (moved.recorded start.position) movedTarget
  refine ⟨?_, second⟩
  by_cases same : start.position = target.position
  · rw [same]
    exact second
  · exact first.untouched (untouched_recorded (moved.recorded start.position) movedTarget same)

/-- Calls other than peels and resets leave alone the positions that they do not name, and put those
that they name on record. -/
theorem Effect.positions (sound : machine.Sound) {call : Call} {lines : List Line}
    (effect : Effect machine call lines next) (plain : call.peelsOrResets = false)
    (position : Nat) :
    machine.Untouched next position ∨ position ∈ call.named ∧ next.UpToDate position := by
  have shaped := sound.shaped
  cases effect with
  | retuned tuning => exact Or.inl (tuning.retuned.toUndisturbed.untouched position)
  | @regauged number _ =>
      exact Or.inl ((machine.regauged_undisturbed number).untouched position)
  | @recorded here inRange =>
      by_cases isHere : position = here
      · rw [isHere]
        exact Or.inr ⟨List.mem_singleton_self here, upToDate_recorded shaped inRange⟩
      · exact Or.inl (untouched_recorded shaped inRange isHere)
  | @knitted needle _ _ yarns fed checked _ =>
      obtain ⟨inRange, _⟩ := (checkMaking_eq_ok shaped).mp checked
      by_cases isHere : position = needle.position
      · rw [isHere]
        exact Or.inr ⟨List.mem_singleton_self _,
          upToDate_recorded (shaped.made needle fed yarns _ _) (by simpa using inRange)⟩
      · exact Or.inl (untouched_made shaped inRange fed yarns _ _ isHere)
  | @tucked needle _ _ yarns fed checked _ =>
      obtain ⟨inRange, _⟩ := (checkMaking_eq_ok shaped).mp checked
      by_cases isHere : position = needle.position
      · rw [isHere]
        exact Or.inr ⟨List.mem_singleton_self _,
          upToDate_recorded (shaped.made needle fed yarns _ _) (by simpa using inRange)⟩
      · exact Or.inl (untouched_made shaped inRange fed yarns _ _ isHere)
  | @splitted start target _ _ yarns fed checked _ =>
      obtain ⟨transfer, _⟩ := (checkSplit_eq_ok shaped).mp checked
      obtain ⟨startInRange, targetInRange, _⟩ := (checkTransfer_eq_ok shaped).mp transfer
      have transferred := shaped.transferred start target
      have stillInRange : start.position < (machine.transferred start target).needleCount := by
        simpa using startInRange
      by_cases atStart : position = start.position
      · rw [atStart]
        exact Or.inr ⟨List.mem_cons_self,
          upToDate_recorded (transferred.made start fed yarns _ _) (by simpa using startInRange)⟩
      · have later := untouched_made transferred stillInRange fed yarns [] [] atStart
        by_cases atTarget : position = target.position
        · rw [atTarget] at later ⊢
          have upToDate := (upToDate_transferred shaped startInRange targetInRange).2
          exact Or.inr ⟨by simp [Call.named], upToDate.untouched later⟩
        · exact Or.inl ((untouched_transferred shaped startInRange targetInRange atStart
            atTarget).trans later)
  | @dropped needle checked =>
      have inRange := (checkNeedle_eq_ok shaped).mp (then_eq_ok.mp checked).1
      by_cases isHere : position = needle.position
      · rw [isHere]
        exact Or.inr ⟨List.mem_singleton_self _,
          upToDate_recorded (shaped.put needle []) (by simpa using inRange)⟩
      · exact Or.inl ((untouched_put shaped inRange [] isHere).trans
          (untouched_recorded (shaped.put needle []) (by simpa using inRange) isHere))
  | @transferred start target checked =>
      obtain ⟨startInRange, targetInRange, _⟩ := (checkTransfer_eq_ok shaped).mp checked
      have upToDate := upToDate_transferred shaped startInRange targetInRange
      by_cases atStart : position = start.position
      · rw [atStart]
        exact Or.inr ⟨List.mem_cons_self, upToDate.1⟩
      · by_cases atTarget : position = target.position
        · rw [atTarget]
          exact Or.inr ⟨by simp [Call.named], upToDate.2⟩
        · exact Or.inl (untouched_transferred shaped startInRange targetInRange atStart atTarget)
  | peeled peels _ _ =>
      rw [peels.peelsOrResets] at plain
      cases plain
  | restored resets _ _ _ =>
      rw [resets.peelsOrResets] at plain
      cases plain

/-- Peels and resets that are not refused make the moves of a plan, and resets then the returns. -/
theorem Effect.crossings {call : Call} {lines : List Line}
    (effect : Effect machine call lines next) (crosses : call.peelsOrResets = true) :
    (∃ plan sheets, call.Peels machine plan ∧ PeelPlan.Fits plan machine sheets ∧
      next = (machine.straightened plan.moves).crossed (plan.ordered machine)) ∨
    ∃ plan sheets chosen returns, call.Resets machine plan chosen ∧
      PeelPlan.Fits plan machine sheets ∧ machine.returnPlan plan chosen = .ok returns ∧
        next = machine.restored plan returns := by
  cases effect with
  | peeled peels fits _ => exact Or.inl ⟨_, _, peels, fits, rfl⟩
  | restored resets fits planned _ => exact Or.inr ⟨_, _, _, _, resets, fits, planned, rfl⟩
  | retuned tuning =>
      rw [tuning.plain] at crosses
      cases crosses
  | _ => cases crosses

end Machine

end VBed
