import VBed.Proofs.Clearance

/-!
Resetting restores the record. The positions that a reset selects lie in the layer of the sheet, so
peeling never moves them, and each is returned at most once. What is on record for the other
positions stays, for peeling is off the record, and the selected positions return to what is on
record for them.
-/

namespace VBed.Machine

variable {machine next : Machine} {plan : PeelPlan} {sheet position : Nat} {returns : List Needle}

/-- A position that resetting a sheet selects: it belongs to the sheet, or holds loops in the layer
of the sheet. -/
def Selected (machine : Machine) (sheet position : Nat) : Prop :=
  position < machine.needleCount ∧ (machine.sheetOf position = sheet ∨
    (machine.presence position).any = true ∧
      machine.layer position = machine.sheetLayer sheet position)

/-- Resetting a sheet moves loops at a position: they are in the way, or not on record where they
are. -/
def Disturbs (machine : Machine) (sheet position : Nat) : Prop :=
  (∃ needle, machine.Blocks [sheet] needle ∧ needle.position = position) ∨
    machine.Selected sheet position ∧ ¬machine.UpToDate position

theorem Selected.layer (selected : machine.Selected sheet position) :
    machine.layer position = machine.sheetLayer sheet position := by
  rcases selected.2 with ofSheet | ⟨_, shares⟩
  · rw [sheetLayer, groupStart, ← ofSheet, sheetOf, Nat.div_add_mod']
  · exact shares

def chosenBy (machine : Machine) (plan : PeelPlan) (sheet position : Nat) : Bool :=
  machine.sheetOf position == sheet || plan.sameLayer.contains position

theorem chosenBy_iff (planned : machine.peelPlan sheet = .ok plan)
    (inRange : position < machine.needleCount) :
    machine.chosenBy plan sheet position = true ↔ machine.Selected sheet position := by
  rw [chosenBy, Bool.or_eq_true, beq_iff_eq, List.contains_iff_mem, mem_sameLayer_iff planned]
  constructor
  · rintro (ofSheet | ⟨_, held, _, layer⟩)
    · exact ⟨inRange, Or.inl ofSheet⟩
    · exact ⟨inRange, Or.inr ⟨held, layer⟩⟩
  · rintro ⟨_, ofSheet | ⟨held, layer⟩⟩
    · exact Or.inl ofSheet
    · by_cases ofSheet : machine.sheetOf position = sheet
      · exact Or.inl ofSheet
      · exact Or.inr ⟨inRange, held, ofSheet, layer⟩

theorem Selected.notBlocked (selected : machine.Selected sheet position) {needle : Needle}
    (blocks : machine.Blocks [sheet] needle) : position ≠ needle.position := by
  rintro rfl
  obtain ⟨active, isActive, inWay⟩ := blocks.inWay
  rw [List.mem_singleton.mp isActive, selected.layer] at inWay
  exact not_inWay_self _ _ inWay

theorem both_of_returnStart {current : Presence} {start : Option Needle}
    (found : returnStart? ⟨true, true⟩ current position = .ok start) : current = ⟨true, true⟩ := by
  obtain ⟨front, back⟩ := current
  cases front <;> cases back <;> first | rfl | cases found

theorem upToDate_of_returnStart {recorded current : Presence}
    (sameAny : recorded.any = current.any)
    (found : returnStart? recorded current position = .ok none) : recorded = current := by
  obtain ⟨recordedFront, recordedBack⟩ := recorded
  obtain ⟨currentFront, currentBack⟩ := current
  cases recordedFront <;> cases recordedBack <;> cases currentFront <;> cases currentBack <;>
    simp_all [returnStart?, returnTo?, Presence.any]

section Returning

variable (reachable : machine.Reachable) (planned : machine.peelPlan sheet = .ok plan)
include reachable planned

theorem projected_selected (selected : machine.Selected sheet position) :
    plan.projected machine position = machine.presence position :=
  projected_settled fun _ member => selected.notBlocked
    (((peelPlan_exact reachable.sound.shaped planned).moves _).mp member)

theorem untouched_of_selected (selected : machine.Selected sheet position) {movers : List Needle} :
    machine.Untouched (machine.peeled plan movers) position :=
  untouched_peeled_of_noBlocks reachable (peelPlan_exact reachable.sound.shaped planned)
    fun _ => selected.notBlocked

variable (returning : machine.returnPlan plan (machine.chosenBy plan sheet) = .ok returns)
include returning

theorem returnStart_of_selected (selected : machine.Selected sheet position) :
    ∃ start, returnStart? (machine.onRecord position) (machine.presence position) position =
        .ok start ∧ ∀ needle, start = some needle → needle ∈ returns := by
  have chosen := (returnPlan_facts returning).1 position selected.1
    ((chosenBy_iff planned selected.1).mpr selected)
  rwa [projected_selected reachable planned selected] at chosen

theorem facts_of_return {start : Needle} (member : start ∈ returns) :
    machine.Selected sheet start.position ∧ start.slider = false ∧
      machine.onRecord start.position = .only start.side.opposite ∧
      machine.presence start.position = .only start.side := by
  obtain ⟨position, inRange, isChosen, found⟩ := (returnPlan_facts returning).2 start member
  have selected := (chosenBy_iff planned inRange).mp isChosen
  rw [projected_selected reachable planned selected] at found
  obtain ⟨rfl, ordinary, recorded, current⟩ := returnStart?_eq_some.mp found
  exact ⟨selected, ordinary, recorded, current⟩

theorem apart_returns : Strict.Apart returns where
  ordinary start member := (returns_fit returning member).1
  single first inFirst second inSecond same := by
    obtain ⟨_, ordinary, _, current⟩ := facts_of_return reachable planned returning inFirst
    obtain ⟨_, alsoOrdinary, _, alsoCurrent⟩ := facts_of_return reachable planned returning inSecond
    rw [same, alsoCurrent] at current
    exact ordinary_ext ordinary alsoOrdinary (Presence.only_inj.mp current.symm) same

/-- A selected position is on record as it is, or its loops return. -/
theorem upToDate_or_returns (selected : machine.Selected sheet position) :
    machine.UpToDate position ∨ ∃ start ∈ returns, start.position = position := by
  obtain ⟨start, found, listed⟩ := returnStart_of_selected reachable planned returning selected
  cases start with
  | none => exact Or.inl (upToDate_of_returnStart (reachable.tracked.any position) found)
  | some start =>
      exact Or.inr ⟨start, listed start rfl, (returnStart?_eq_some.mp found).1⟩

theorem returns_inRange {movers : List Needle} :
    (machine.peeled plan movers).Shaped ∧
      ∀ start ∈ returns, start.position < (machine.peeled plan movers).needleCount :=
  peeled_inRange reachable (peelPlan_exact reachable.sound.shaped planned) fun _ member =>
    (returns_fit returning member).2

theorem untouched_of_noReturn (elsewhere : ∀ start ∈ returns, position ≠ start.position) :
    (machine.peeled plan (plan.moves ++ returns)).Untouched (machine.restored plan returns)
      position := by
  obtain ⟨shaped, inRange⟩ := returns_inRange reachable planned returning
  exact untouched_returned shaped inRange elsewhere

/-- Returned loops are where they are on record. -/
theorem presence_restored {start : Needle} (member : start ∈ returns) :
    (machine.restored plan returns).presence start.position =
      machine.onRecord start.position := by
  let middle := machine.peeled plan (plan.moves ++ returns)
  obtain ⟨shaped, inRange⟩ : middle.Shaped ∧ _ := returns_inRange reachable planned returning
  obtain ⟨selected, ordinary, recorded, current⟩ :=
    facts_of_return reachable planned returning member
  have stays : machine.Untouched middle start.position :=
    untouched_of_selected reachable planned selected
  have loops : ∀ needle, (machine.restored plan returns).loops needle =
      (middle.crossed returns).loops needle :=
    loops_returned shaped shaped rfl (fun _ => rfl) inRange
  obtain ⟨leaves, arrives⟩ :=
    loops_crossed_mem shaped (apart_returns reachable planned returning) inRange member
  rw [← loops] at leaves
  rw [← loops, stays.loops start rfl, stays.loops start.opposite rfl] at arrives
  have held := ((presence_eq_only_iff ordinary).mp current).1
  have oppositeOrdinary : start.opposite.slider = false := ordinary
  rw [recorded]
  refine (presence_eq_only_iff oppositeOrdinary).mpr ⟨?_, ?_⟩
  · rw [arrives]
    exact List.append_ne_nil_of_right_ne_nil _ held
  · rwa [Needle.opposite_opposite]

theorem onRecord_restored (position : Nat) :
    (machine.restored plan returns).onRecord position = machine.onRecord position := by
  by_cases comesBack : ∃ start ∈ returns, start.position = position
  · obtain ⟨shaped, inRange⟩ := returns_inRange reachable planned returning
    have upToDate : (machine.restored plan returns).UpToDate position :=
      upToDate_returned shaped inRange (Or.inl comesBack)
    obtain ⟨start, member, rfl⟩ := comesBack
    rw [upToDate, presence_restored reachable planned returning member]
  · have elsewhere : ∀ start ∈ returns, position ≠ start.position :=
      fun start member here => comesBack ⟨start, member, here.symm⟩
    rw [(untouched_of_noReturn reachable planned returning elsewhere).record]
    exact onRecord_congr ((record_crossed _).trans (record_straightened _)) position

theorem upToDate_restored (selected : machine.Selected sheet position) :
    (machine.restored plan returns).UpToDate position := by
  obtain ⟨shaped, inRange⟩ := returns_inRange reachable planned returning
  refine upToDate_returned shaped inRange ?_
  rcases upToDate_or_returns reachable planned returning selected with upToDate | comesBack
  · exact Or.inr (upToDate.untouched (untouched_of_selected reachable planned selected))
  · exact Or.inl comesBack

/-- Nothing is in the way of the sheet once it is reset, for what returns lies in its layer. -/
theorem loops_restored_inWay {needle : Needle} (ordinary : needle.slider = false)
    (inactive : machine.sheetOf needle.position ≠ sheet)
    (inWay : InWay (machine.sheetLayer sheet needle.position) (machine.layer needle.position)
      needle.side) : (machine.restored plan returns).loops needle = [] := by
  have elsewhere : ∀ start ∈ returns, needle.position ≠ start.position := by
    intro start member here
    have selected := (facts_of_return reachable planned returning member).1
    rw [here, selected.layer] at inWay
    exact not_inWay_self _ _ inWay
  rw [(untouched_of_noReturn reachable planned returning elsewhere).loops needle rfl]
  exact (loops_peeled_inWay reachable (peelPlan_exact reachable.sound.shaped planned) ordinary
    (by simpa using inactive) (List.mem_singleton_self sheet) inWay).2

theorem disturbs_of_return {start : Needle} (member : start ∈ returns) :
    machine.Disturbs sheet start.position := by
  obtain ⟨selected, _, recorded, current⟩ := facts_of_return reachable planned returning member
  refine Or.inr ⟨selected, fun upToDate => opposite_side start ?_⟩
  rw [UpToDate, recorded, current] at upToDate
  exact (Presence.only_inj.mp upToDate).symm

theorem disturbs_iff :
    machine.Disturbs sheet position ↔
      ∃ needle ∈ plan.ordered machine ++ returns, needle.position = position := by
  have exactly := peelPlan_exact reachable.sound.shaped planned
  constructor
  · rintro (⟨needle, blocks, here⟩ | ⟨selected, outdated⟩)
    · have ordered := reachable.mem_ordered_iff.mpr ((exactly.moves needle).mpr blocks)
      exact ⟨needle, List.mem_append_left _ ordered, here⟩
    · rcases upToDate_or_returns reachable planned returning selected with
        upToDate | ⟨start, member, here⟩
      · exact absurd upToDate outdated
      · exact ⟨start, List.mem_append_right _ member, here⟩
  · rintro ⟨needle, member, rfl⟩
    rcases List.mem_append.mp member with ordered | comesBack
    · exact Or.inl ⟨needle, (exactly.moves needle).mp (mem_ordered ordered), rfl⟩
    · exact disturbs_of_return reachable planned returning comesBack

theorem checkCrossings_returns :
    machine.checkCrossings (plan.ordered machine ++ returns) = .ok () ↔
      ∀ position, machine.Disturbs sheet position → machine.SlidersEmptyAt position := by
  have exactly := peelPlan_exact reachable.sound.shaped planned
  have fits : ∀ needle ∈ plan.ordered machine ++ returns,
      needle.slider = false ∧ needle.position < machine.needleCount := by
    intro needle member
    rcases List.mem_append.mp member with ordered | comesBack
    · have moves := mem_ordered ordered
      exact ⟨exactly.ordinary needle moves, exactly.inRange needle moves⟩
    · exact returns_fit returning comesBack
  rw [checkCrossings_eq_ok reachable.sound.shaped (fun needle member => (fits needle member).1)
    fun needle member => (fits needle member).2]
  constructor
  · intro empty position disturbs
    obtain ⟨needle, member, rfl⟩ := (disturbs_iff reachable planned returning).mp disturbs
    exact empty needle member
  · intro empty needle member
    exact empty _ ((disturbs_iff reachable planned returning).mpr ⟨needle, member, rfl⟩)

end Returning

section Resetting

variable (reachable : machine.Reachable) (planned : machine.peelPlan sheet = .ok plan)
include reachable planned

/-- A return that cannot be planned is one of loops that have been merged since they were put on
record for both needles. -/
theorem returnPlan_refused {fault : Fault}
    (refused : machine.returnPlan plan (machine.chosenBy plan sheet) = .error fault) :
    ∃ position, machine.Selected sheet position ∧ machine.onRecord position = ⟨true, true⟩ ∧
      machine.presence position ≠ ⟨true, true⟩ ∧
        fault = .unseparatedLoops (.front position) (.back position) := by
  rcases bind_eq_error.mp refused with here | ⟨_, _, impossible⟩
  · obtain ⟨position, member, stuck⟩ := mapM_eq_error here
    simp only [List.mem_filter, List.mem_range] at member
    have selected := (chosenBy_iff planned member.1).mp member.2
    rw [projected_selected reachable planned selected] at stuck
    change returnStart? (machine.onRecord position) _ _ = _ at stuck
    obtain ⟨recorded, same⟩ := returnStart_eq_error (reachable.tracked.any position)
      (reachable.tracked.both position) stuck
    refine ⟨position, selected, recorded, fun both => ?_, same⟩
    rw [recorded, both] at stuck
    cases stuck
  · exact absurd impossible pure_ne_error

theorem exists_returnPlan_iff :
    (∃ returns, machine.returnPlan plan (machine.chosenBy plan sheet) = .ok returns) ↔
      ∀ position, machine.Selected sheet position → machine.onRecord position = ⟨true, true⟩ →
        machine.presence position = ⟨true, true⟩ := by
  constructor
  · rintro ⟨returns, returning⟩ position selected recorded
    obtain ⟨_, found, _⟩ := returnStart_of_selected reachable planned returning selected
    rw [recorded] at found
    exact both_of_returnStart found
  · intro separate
    cases returning : machine.returnPlan plan (machine.chosenBy plan sheet) with
    | ok returns => exact ⟨returns, rfl⟩
    | error fault =>
        obtain ⟨position, selected, recorded, merged, _⟩ :=
          returnPlan_refused reachable planned returning
        exact absurd (separate position selected recorded) merged

theorem resetBy_eq_ok {active : String} {lines : List Line} :
    resetBy plan active (machine.chosenBy plan sheet) machine = .ok lines next ↔
      ∃ returns, machine.returnPlan plan (machine.chosenBy plan sheet) = .ok returns ∧
        (∀ position, machine.Disturbs sheet position → machine.SlidersEmptyAt position) ∧
        machine.resetLines plan returns active = lines ∧
        machine.restored plan returns = next := by
  rcases resetBy_run reachable.sound.shaped (peelPlan_fits planned) active
    (machine.chosenBy plan sheet) with
    ⟨fault, ran, refused | ⟨returns, returning, refused⟩⟩ | ⟨returns, returning, passed, ran⟩
  · simp [ran, refused]
  · have checks := checkCrossings_returns reachable planned returning
    rw [refused] at checks
    simp [ran, returning, ← checks]
  · have checks := checkCrossings_returns reachable planned returning
    rw [passed] at checks
    simp [ran, returning, ← checks]

end Resetting

theorem reset_eq_ok {lines : List Line} :
    reset sheet machine = .ok lines next ↔
      ∃ plan, machine.peelPlan sheet = .ok plan ∧
        resetBy plan (Text.decimal sheet) (machine.chosenBy plan sheet) machine =
          .ok lines next := by
  rw [reset, run_get_bind]
  exact ask_bind_eq_ok

theorem record_ext (shaped : machine.Shaped) (nextShaped : next.Shaped)
    (sameCount : next.needleCount = machine.needleCount)
    (same : ∀ position, next.onRecord position = machine.onRecord position) :
    next.record = machine.record := by
  have sameSize : next.record.size = machine.record.size := by
    rw [nextShaped.record, shaped.record, sameCount]
  refine Array.ext sameSize fun position inNext inMachine => ?_
  simpa [onRecord, inNext, inMachine] using same position

inductive ResetRefusal (machine : Machine) (sheet : Nat) : Fault → Prop
  | outOfRange (missing : machine.gauge ≤ sheet) :
      ResetRefusal machine sheet (.sheetOutOfRange sheet machine.gauge)
  | unseparated {position : Nat} (selected : machine.Selected sheet position)
      (recorded : machine.recordAt position = .ok ⟨true, true⟩)
      (merged : machine.presenceAt position ≠ .ok ⟨true, true⟩) :
      ResetRefusal machine sheet (.unseparatedLoops (.front position) (.back position))
  | notClear (needle : Needle) : ResetRefusal machine sheet (.needleNotClear needle)

theorem reset_refused (reachable : machine.Reachable) {fault : Fault}
    (refused : reset sheet machine = .error fault next) : machine.ResetRefusal sheet fault := by
  have shaped := reachable.sound.shaped
  rw [reset, run_get_bind] at refused
  cases planned : machine.peelPlan sheet with
  | error reason =>
      rw [run_bind_error (ask_error planned)] at refused
      cases refused
      rcases bind_eq_error.mp planned with missing | ⟨_, _, impossible⟩
      · rw [checkSheet, reachable.validGauge] at missing
        change (if machine.gauge ≤ sheet then throw _ else pure ()) = _ at missing
        split at missing
        · rename_i outside
          cases missing
          exact .outOfRange outside
        · cases missing
      · exact absurd impossible pure_ne_error
  | ok plan =>
      rw [run_bind_ok (ask_ok planned)] at refused
      rcases resetBy_run shaped (peelPlan_fits planned) (Text.decimal sheet)
        (machine.chosenBy plan sheet) with
        ⟨reason, ran, stuck | ⟨returns, returning, stuck⟩⟩ | ⟨_, _, _, ran⟩
      · cases ran.symm.trans refused
        obtain ⟨position, selected, recorded, merged, rfl⟩ :=
          returnPlan_refused reachable planned stuck
        refine .unseparated selected (by rw [recordAt_ok selected.1, recorded]) ?_
        rw [presenceAt_ok shaped selected.1]
        exact fun same => merged (Except.ok.inj same)
      · cases ran.symm.trans refused
        have inRange : ∀ needle ∈ plan.ordered machine ++ returns,
            needle.position < machine.needleCount := by
          intro needle member
          rcases List.mem_append.mp member with ordered | comesBack
          · exact (peelPlan_fits planned).inRange needle (mem_ordered ordered)
          · exact (returns_fit returning comesBack).2
        obtain ⟨needle, rfl⟩ := checkCrossings_inRange shaped inRange stuck
        exact .notClear needle
      · cases ran.symm.trans refused

structure Restored (machine next : Machine) (sheet : Nat) (lines : List Line) : Prop where
  upToDate : ∀ position, machine.Selected sheet position →
    next.presenceAt position = next.recordAt position
  clear : ∀ position, machine.sheetOf position ≠ sheet →
    (machine.layer position < machine.sheetLayer sheet position →
        next.loops (.back position) = []) ∧
      (machine.sheetLayer sheet position < machine.layer position →
        next.loops (.front position) = [])
  record : next.record = machine.record
  sliders : ∀ needle : Needle, needle.slider = true → next.loops needle = machine.loops needle
  setting : machine.SameSetting next
  holds : ∀ loop, next.Holds loop ↔ machine.Holds loop
  transfers : ∀ position, machine.Disturbs sheet position ↔
    ∃ start target, .xfer start target ∈ Line.instructions lines ∧ start.position = position

theorem restored_of_run (reachable : machine.Reachable)
    (planned : machine.peelPlan sheet = .ok plan)
    (returning : machine.returnPlan plan (machine.chosenBy plan sheet) = .ok returns)
    (shifted : machine.Shifted (machine.restored plan returns)) (active : String) :
    machine.Restored (machine.restored plan returns) sheet
      (machine.resetLines plan returns active) where
  upToDate position selected := by
    have inRange : position < (machine.restored plan returns).needleCount := by
      rw [shifted.needleCount]
      exact selected.1
    rw [presenceAt_ok shifted.shaped inRange, recordAt_ok inRange,
      upToDate_restored reachable planned returning selected]
  clear position inactive :=
    ⟨fun before => loops_restored_inWay reachable planned returning rfl inactive before,
      fun behind => loops_restored_inWay reachable planned returning rfl inactive behind⟩
  record := record_ext reachable.sound.shaped shifted.shaped shifted.needleCount
    (onRecord_restored reachable planned returning)
  sliders := shifted.sliders
  setting := shifted.setting
  holds := (reachable.sound.restored (peelPlan_fits planned) returning).holds
  transfers position := by
    rw [disturbs_iff reachable planned returning, resetLines, instructions_append,
      instructions_peelLines, instructions_returnLines, List.append_assoc, ← List.map_append]
    constructor
    · rintro ⟨needle, member, here⟩
      exact ⟨needle, needle.opposite,
        List.mem_append_right _ (List.mem_map.mpr ⟨needle, member, rfl⟩), here⟩
    · rintro ⟨start, target, member, here⟩
      rcases List.mem_append.mp member with racks | transfers
      · exact absurd racks xfer_not_mem_straightenLines
      · obtain ⟨needle, moves, same⟩ := List.mem_map.mp transfers
        obtain ⟨rfl, rfl⟩ := Instruction.xfer.inj same
        exact ⟨_, moves, here⟩

theorem Restored.selected_iff {lines : List Line} (restored : machine.Restored next sheet lines)
    (reachable : machine.Reachable) (later : next.Reachable) :
    next.Selected sheet position ↔ machine.Selected sheet position := by
  have any := any_presence_congr reachable later restored.record position
  have setting := restored.setting
  rw [Selected, Selected, any, setting.sheetOf, setting.layer, setting.sheetLayer, needleCount,
    setting.spec]
  rfl

theorem Restored.settled {lines : List Line} (restored : machine.Restored next sheet lines)
    (reachable : machine.Reachable) (later : next.Reachable) (position : Nat) :
    ¬next.Disturbs sheet position := by
  have setting := restored.setting
  rintro (⟨needle, ⟨ordinary, held, inactive, active, isActive, inWay⟩, rfl⟩ |
    ⟨selected, outdated⟩)
  · obtain rfl := List.mem_singleton.mp isActive
    rw [setting.sheetOf, List.mem_singleton] at inactive
    rw [setting.layer, setting.sheetLayer] at inWay
    obtain ⟨side, position, slider⟩ := needle
    cases ordinary
    have clear := restored.clear position inactive
    cases side with
    | front => exact held (clear.2 inWay)
    | back => exact held (clear.1 inWay)
  · have same := restored.upToDate position ((restored.selected_iff reachable later).mp selected)
    rw [presenceAt_ok later.sound.shaped selected.1, recordAt_ok selected.1] at same
    exact outdated (Except.ok.inj same).symm

theorem reset_idle (reachable : machine.Reachable) (exist : sheet < machine.gauge)
    (idle : ∀ position, ¬machine.Disturbs sheet position) :
    ∃ lines, reset sheet machine = .ok lines machine ∧ Line.instructions lines = [] := by
  obtain ⟨plan, planned⟩ := (exists_peelPlan_iff reachable.validGauge).mpr exist
  have exactly := peelPlan_exact reachable.sound.shaped planned
  obtain ⟨returns, returning⟩ := (exists_returnPlan_iff reachable planned).mpr
    fun position selected recorded => by
      have upToDate : machine.UpToDate position := by
        by_contra outdated
        exact idle position (Or.inr ⟨selected, outdated⟩)
      rw [← upToDate, recorded]
  have noMovers : plan.ordered machine ++ returns = [] := by
    refine List.eq_nil_iff_forall_not_mem.mpr fun needle member => idle needle.position ?_
    exact (disturbs_iff reachable planned returning).mpr ⟨needle, member, rfl⟩
  obtain ⟨noOrder, rfl⟩ := List.append_eq_nil_iff.mp noMovers
  have noMoves : plan.moves = [] := exactly.moves_eq_nil fun needle blocks =>
    idle needle.position (Or.inl ⟨needle, blocks, rfl⟩)
  refine ⟨_, reset_eq_ok.mpr ⟨plan, planned, (resetBy_eq_ok reachable planned).mpr
    ⟨[], returning, fun position disturbs => absurd disturbs (idle position), rfl, ?_⟩⟩, ?_⟩
  · rw [restored, noOrder, noMoves]
    rfl
  · rw [resetLines, instructions_append, instructions_peelLines, noOrder, noMoves]
    rfl

/-- Resetting a sheet succeeds unless merged loops would have to be separated or loops moved where
sliders hold some; it then restores the record, and does nothing when it is repeated. -/
structure RestoresRecord (machine : Machine) : Prop where
  succeeds : ∀ sheet, (∃ lines next, reset sheet machine = .ok lines next) ↔
    sheet < machine.gauge ∧
      (∀ position, machine.Selected sheet position →
        machine.recordAt position = .ok ⟨true, true⟩ →
          machine.presenceAt position = .ok ⟨true, true⟩) ∧
      ∀ position, machine.Disturbs sheet position → machine.SlidersEmptyAt position
  refused : ∀ sheet fault next, reset sheet machine = .error fault next →
    machine.ResetRefusal sheet fault
  restores : ∀ sheet lines next, reset sheet machine = .ok lines next →
    machine.Restored next sheet lines ∧
      ∃ again, reset sheet next = .ok again next ∧ Line.instructions again = []

theorem restoresRecord_of_reachable (reachable : machine.Reachable) : machine.RestoresRecord := by
  have shaped := reachable.sound.shaped
  have valid := reachable.validGauge
  refine ⟨?_, ?_, ?_⟩
  · intro sheet
    have separate : (∀ position, machine.Selected sheet position →
        machine.recordAt position = .ok ⟨true, true⟩ →
          machine.presenceAt position = .ok ⟨true, true⟩) ↔
        ∀ position, machine.Selected sheet position → machine.onRecord position = ⟨true, true⟩ →
          machine.presence position = ⟨true, true⟩ := by
      refine forall₂_congr fun position selected => ?_
      rw [recordAt_ok selected.1, presenceAt_ok shaped selected.1, Except.ok.injEq,
        Except.ok.injEq]
    rw [separate, ← exists_peelPlan_iff valid]
    constructor
    · rintro ⟨lines, next, ran⟩
      obtain ⟨plan, planned, resets⟩ := reset_eq_ok.mp ran
      obtain ⟨returns, returning, empty, _⟩ := (resetBy_eq_ok reachable planned).mp resets
      exact ⟨⟨plan, planned⟩,
        (exists_returnPlan_iff reachable planned).mp ⟨returns, returning⟩, empty⟩
    · rintro ⟨⟨plan, planned⟩, separates, empty⟩
      obtain ⟨returns, returning⟩ := (exists_returnPlan_iff reachable planned).mpr separates
      exact ⟨_, _, reset_eq_ok.mpr ⟨plan, planned,
        (resetBy_eq_ok reachable planned).mpr ⟨returns, returning, empty, rfl, rfl⟩⟩⟩
  · exact fun sheet fault next => reset_refused reachable
  · intro sheet lines next ran
    obtain ⟨plan, planned, resets⟩ := reset_eq_ok.mp ran
    obtain ⟨returns, returning, _, rfl, rfl⟩ := (resetBy_eq_ok reachable planned).mp resets
    let call := Call.apply (.reset sheet)
    have acts : call.act machine = .ok _ (machine.restored plan returns) := ran
    have later := after_of_act acts ▸ reachable.step call
    have shifted := after_of_act acts ▸
      shifted_after reachable.sound (rfl : call.peelsOrResets = true)
    have restores := restored_of_run reachable planned returning shifted (Text.decimal sheet)
    have exist := (exists_peelPlan_iff valid).mp ⟨plan, planned⟩
    rw [← restores.setting.gauge] at exist
    exact ⟨restores, reset_idle later exist (restores.settled reachable later)⟩

def displaced : Machine :=
  (initial twoNeedles).afterAll [.apply (.inhook ⟨1⟩), .apply (.tuck (.front 0) [⟨1⟩] none),
    .apply (.tuck (.front 1) [⟨1⟩] none), .apply (.gauge 2), .apply (.peel 0),
    .apply (.layerToBack 0), .apply (.setLayer 1 0), .apply (.peel 1), .apply (.setLayer 1 1)]

theorem restoresRecord_displaced :
    displaced.loops (.back 0) = [⟨0⟩] ∧ displaced.loops (.back 1) = [⟨1⟩] ∧
      (displaced.afterAll [.apply (.reset 0)]).loops (.front 0) = [⟨0⟩] ∧
      (displaced.afterAll [.apply (.reset 0)]).loops (.front 1) = [⟨1⟩] ∧
      displaced.RestoresRecord :=
  ⟨by decide +kernel, by decide +kernel, by decide +kernel, by decide +kernel,
    restoresRecord_of_reachable (reachable_twoNeedles _)⟩

end VBed.Machine
