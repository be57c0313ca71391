import VBed.Proofs.Restoring

/-!
Several sheets worked together. A list of sheets counts as the set of its members: where they share
a layer it does not matter which of them is asked for it, and where they do not the list is refused
whichever comes first. One sheet alone is worked as it is by itself, but it is refused where loops
of other sheets lie in its layer.
-/

namespace VBed

def Line.work? : Line → Option (Instruction × Option String)
  | instruction content note => some (content, note)
  | _ => none

def Line.work (lines : List Line) : List (Instruction × Option String) :=
  lines.filterMap Line.work?

theorem Line.work_append (first second : List Line) :
    Line.work (first ++ second) = Line.work first ++ Line.work second :=
  List.filterMap_append

section SameCode

variable {α β : Type}

def SameCode (first second : Except Fault α) : Prop :=
  first.mapError Fault.code = second.mapError Fault.code

theorem sameCode_error {first second : Fault} :
    SameCode (.error first : Except Fault α) (.error second) ↔ first.code = second.code :=
  ⟨Except.error.inj, congrArg Except.error⟩

theorem SameCode.ok_iff {first second : Except Fault α} (same : SameCode first second) {value : α} :
    first = .ok value ↔ second = .ok value := by
  cases first <;> cases second <;> simp_all [SameCode, Except.mapError]

theorem SameCode.error {first second : Except Fault α} (same : SameCode first second)
    {fault : Fault} (refused : first = .error fault) :
    ∃ other, second = .error other ∧ other.code = fault.code := by
  subst refused
  cases second with
  | error other => exact ⟨other, rfl, (sameCode_error.mp same).symm⟩
  | ok value => cases same

theorem SameCode.bind {first second : Except Fault α} {next other : α → Except Fault β}
    (same : SameCode first second)
    (later : ∀ value, first = .ok value → SameCode (next value) (other value)) :
    SameCode (first >>= next) (second >>= other) := by
  cases passed : first with
  | error fault =>
      obtain ⟨reason, refused, code⟩ := same.error passed
      rw [refused]
      exact sameCode_error.mpr code.symm
  | ok value =>
      rw [same.ok_iff.mp passed]
      exact later value passed

theorem sameCode_forM {check other : α → Except Fault Unit} {elements : List α}
    (each : ∀ element ∈ elements, SameCode (check element) (other element)) :
    SameCode (elements.forM check) (elements.forM other) := by
  induction elements with
  | nil => rfl
  | cons element rest ih =>
      exact (each element (by simp)).bind fun _ _ =>
        ih fun later member => each later (by simp [member])

end SameCode

/-- Sheets that do not all exist are refused with one code, whichever of them is missing. -/
theorem sameCode_checkSheets {gauge : Nat} (valid : checkGauge gauge = .ok ())
    {first second : List Nat} (same : ∀ sheet, sheet ∈ first ↔ sheet ∈ second) :
    SameCode (first.forM (checkSheet · gauge)) (second.forM (checkSheet · gauge)) := by
  have refusedCode : ∀ {sheets : List Nat} {fault : Fault},
      sheets.forM (checkSheet · gauge) = .error fault → fault.code = "SHEET_OUT_OF_RANGE" := by
    intro sheets fault refused
    obtain ⟨sheet, _, here⟩ := forM_eq_error refused
    rw [checkSheet, valid] at here
    rcases bind_eq_error.mp here with impossible | ⟨_, _, missing⟩
    · cases impossible
    · split at missing
      · cases missing
        rfl
      · cases missing
  have passes : first.forM (checkSheet · gauge) = .ok () ↔
      second.forM (checkSheet · gauge) = .ok () := by
    simp only [forM_eq_ok, same]
  cases checked : first.forM (checkSheet · gauge) with
  | ok passed => rw [passes.mp checked]; rfl
  | error fault =>
      cases again : second.forM (checkSheet · gauge) with
      | ok passed =>
          rw [passes.mpr again] at checked
          cases checked
      | error reason =>
          rw [sameCode_error, refusedCode checked, refusedCode again]

namespace Machine

variable {machine next : Machine} {plan : PeelPlan} {sheets first second : List Nat}
  {sheet position : Nat}

theorem checkSeparable_shared {active : Nat} (isActive : active ∈ sheets)
    (shared : ∀ left ∈ sheets, ∀ right ∈ sheets,
      machine.sheetLayer left position = machine.sheetLayer right position) :
    machine.checkSeparable sheets position =
      if machine.layer position = machine.sheetLayer active position then
        .error (.unseparableSheets (machine.sheetOf position) sheets position)
      else .ok () := by
  have agree :
      ¬sheets.any (machine.sheetLayer · position ≠ machine.sheetLayer active position) := by
    rw [List.any_eq_true]
    rintro ⟨other, isOther, differs⟩
    exact of_decide_eq_true differs (shared other isOther active isActive)
  simp only [checkSeparable, sharedLayer_eq shared isActive, if_neg agree]
  rfl

theorem checkSeparable_unshared
    (unshared : ¬∀ left ∈ sheets, ∀ right ∈ sheets,
      machine.sheetLayer left position = machine.sheetLayer right position) :
    machine.checkSeparable sheets position =
      .error (.inconsistentSheetLayering sheets position) := by
  have disagree : sheets.any
      (machine.sheetLayer · position ≠ machine.sharedLayer sheets position) := by
    refine Decidable.byContradiction fun agree => unshared fun left isLeft right isRight => ?_
    have all : ∀ other ∈ sheets,
        machine.sheetLayer other position = machine.sharedLayer sheets position := by
      simpa using agree
    rw [all left isLeft, all right isRight]
  simp only [checkSeparable, if_pos disagree]
  rfl

section SameMembers

variable (same : ∀ sheet, sheet ∈ first ↔ sheet ∈ second)
include same

theorem contains_congr (sheet : Nat) : first.contains sheet = second.contains sheet := by
  rw [Bool.eq_iff_iff, List.contains_iff_mem, List.contains_iff_mem, same]

theorem otherPositions_sameMembers :
    machine.otherPositions first = machine.otherPositions second := by
  simp only [otherPositions, contains_congr same]

/-- Sheets that agree on a layer agree in any order; those that do not are refused in any order. -/
theorem sameCode_checkSeparable (named : first ≠ []) (position : Nat) :
    SameCode (machine.checkSeparable first position) (machine.checkSeparable second position) := by
  obtain ⟨active, isActive⟩ := List.exists_mem_of_ne_nil first named
  by_cases shared : ∀ left ∈ first, ∀ right ∈ first,
      machine.sheetLayer left position = machine.sheetLayer right position
  · have sharedAgain := shared
    simp only [same] at sharedAgain
    rw [checkSeparable_shared isActive shared,
      checkSeparable_shared ((same active).mp isActive) sharedAgain]
    split <;> rfl
  · have unsharedAgain := shared
    simp only [same] at unsharedAgain
    rw [checkSeparable_unshared shared, checkSeparable_unshared unsharedAgain]
    rfl

theorem sameCode_peelPlanAll (valid : checkGauge machine.gauge = .ok ()) :
    SameCode (machine.peelPlanAll first) (machine.peelPlanAll second) := by
  by_cases named : first = []
  · have noneAgain : second = [] := List.eq_nil_iff_forall_not_mem.mpr fun sheet member => by
      rw [← same, named] at member
      cases member
    rw [named, noneAgain]
    rfl
  · obtain ⟨active, isActive⟩ := List.exists_mem_of_ne_nil first named
    have isActiveAgain := (same active).mp isActive
    have firstNamed : first.isEmpty = false := List.isEmpty_eq_false_iff.mpr named
    have secondNamed : second.isEmpty = false :=
      List.isEmpty_eq_false_iff.mpr (List.ne_nil_of_mem isActiveAgain)
    simp only [peelPlanAll, firstNamed, secondNamed, ← otherPositions_sameMembers same]
    refine (sameCode_checkSheets valid same).bind fun _ _ => ?_
    refine (sameCode_forM fun position _ => sameCode_checkSeparable same named position).bind
      fun _ separable => ?_
    have layers : ∀ position ∈ machine.otherPositions first,
        machine.sharedLayer first position = machine.sharedLayer second position := by
      intro position member
      have passed := (forM_eq_ok _).mp separable position member
      have passedAgain := (sameCode_checkSeparable same named position).ok_iff.mp passed
      rw [← (checkSeparable_eq_ok.mp passed).1 active isActive,
        ← (checkSeparable_eq_ok.mp passedAgain).1 active isActiveAgain]
    rw [List.filterMap_congr fun position member => by rw [layers position member]]
    rfl

end SameMembers

def worked (result : EStateM.Result Fault Machine (List Line)) :
    Except String (List (Instruction × Option String)) × Machine :=
  match result with
  | .ok lines next => (.ok (Line.work lines), next)
  | .error fault next => (.error fault.code, next)

theorem worked_eq_ok {result : EStateM.Result Fault Machine (List Line)}
    {work : List (Instruction × Option String)} :
    worked result = (.ok work, next) ↔
      ∃ lines, result = .ok lines next ∧ Line.work lines = work := by
  cases result <;> simp [worked, and_comm]

theorem ran_of_worked {result other : EStateM.Result Fault Machine (List Line)}
    (same : worked result = worked other) {lines : List Line} (ran : result = .ok lines next) :
    ∃ again, other = .ok again next ∧ Line.work again = Line.work lines :=
  worked_eq_ok.mp (same.symm.trans (worked_eq_ok.mpr ⟨lines, ran, rfl⟩))

/-- The comments say for which sheets the others are peeled; the work does not depend on that. -/
theorem work_peelLines (needles : List Needle) (active other : String) :
    Line.work (machine.peelLines plan needles active) =
      Line.work (machine.peelLines plan needles other) := by
  have perSheet : ∀ title sheet, (plan.lines machine title sheet).filterMap Line.work? =
      (plan.movesOf machine sheet).map fun needle => (.xfer needle needle.opposite, none) := by
    intro title sheet
    rw [PeelPlan.lines, List.filterMap_cons_none rfl, List.filterMap_map]
    exact congrFun (List.filterMap_eq_map) _
  simp only [peelLines, Line.work, List.filterMap_append, List.filterMap_flatMap, perSheet]

theorem worked_peelBy (shaped : machine.Shaped) (fits : plan.Fits machine sheets)
    (active other : String) :
    worked (peelBy plan active machine) = worked (peelBy plan other machine) := by
  rcases peelBy_run shaped fits active with ⟨fault, refused, ran⟩ | ⟨passed, ran⟩
  · have again : peelBy plan other machine = .error fault machine :=
      run_bind_error (ask_error refused)
    rw [ran, again]
  · rcases peelBy_run shaped fits other with ⟨fault, refused, _⟩ | ⟨_, again⟩
    · rw [passed] at refused
      cases refused
    · rw [ran, again, worked, worked, work_peelLines plan.moves active other]

theorem worked_resetBy (shaped : machine.Shaped) (fits : plan.Fits machine sheets)
    (active other : String) (chosen : Nat → Bool) :
    worked (resetBy plan active chosen machine) = worked (resetBy plan other chosen machine) := by
  rcases resetBy_run shaped fits active chosen with
    ⟨fault, ran, refused⟩ | ⟨returns, planned, passed, ran⟩
  · have again : resetBy plan other chosen machine = .error fault machine := by
      rcases refused with unplanned | ⟨returns, planned, unchecked⟩
      · exact run_bind_error (ask_error unplanned)
      · rw [resetBy, run_bind_ok (ask_ok planned), run_bind_error (ask_error unchecked)]
    rw [ran, again]
  · rcases resetBy_run shaped fits other chosen with
      ⟨fault, _, unplanned | ⟨_, plannedAgain, unchecked⟩⟩ | ⟨_, plannedAgain, _, again⟩
    · rw [planned] at unplanned
      cases unplanned
    · rw [planned] at plannedAgain
      cases plannedAgain
      rw [passed] at unchecked
      cases unchecked
    · rw [planned] at plannedAgain
      cases plannedAgain
      rw [ran, again, worked, worked, resetLines, resetLines, Line.work_append, Line.work_append,
        work_peelLines _ active other]

theorem worked_ask {query other : Machine → Except Fault PeelPlan}
    (same : SameCode (query machine) (other machine)) {rest later : PeelPlan → Action (List Line)}
    (follows : ∀ plan, query machine = .ok plan →
      worked (rest plan machine) = worked (later plan machine)) :
    worked ((ask query >>= rest) machine) = worked ((ask other >>= later) machine) := by
  cases planned : query machine with
  | ok plan =>
      rw [run_bind_ok (ask_ok planned), run_bind_ok (ask_ok (same.ok_iff.mp planned)),
        follows plan planned]
  | error fault =>
      obtain ⟨reason, refused, code⟩ := same.error planned
      rw [run_bind_error (ask_error planned), run_bind_error (ask_error refused), worked, worked,
        code]

/-- One sheet in a list has the plan that it has alone, but only where no others share its layer. -/
theorem peelPlanAll_single :
    machine.peelPlanAll [sheet] = .ok plan ↔
      machine.peelPlan sheet = .ok plan ∧ plan.sameLayer = [] := by
  have separable : ∀ position, machine.checkSeparable [sheet] position = .ok () ↔
      machine.layer position ≠ machine.sheetLayer sheet position := by
    intro position
    rw [checkSeparable_eq_ok]
    exact and_iff_right fun active isActive => by rw [List.mem_singleton.mp isActive]; rfl
  simp only [peelPlanAll, peelPlan, throw_bind, refusal_eq_ok, then_eq_ok, pure_eq_ok, forM_eq_ok,
    separable, List.forall_mem_singleton]
  constructor
  · rintro ⟨_, exist, apart, rfl⟩
    have none : (machine.otherPositions [sheet]).filter (fun position =>
        machine.layer position == machine.sheetLayer sheet position) = [] := by
      rw [List.filter_eq_nil_iff]
      intro position member
      simpa using apart position member
    exact ⟨⟨exist, by rw [none]; rfl⟩, rfl⟩
  · rintro ⟨⟨exist, rfl⟩, none⟩
    refine ⟨by simp, exist, fun position member shares => ?_, (congrArg (PeelPlan.mk _) none).symm⟩
    exact List.filter_eq_nil_iff.mp none position member (beq_iff_eq.mpr shares)

theorem sameLayer_eq_nil (planned : machine.peelPlan sheet = .ok plan) :
    plan.sameLayer = [] ↔ ∀ position, ¬machine.SharesLayer sheet position := by
  simp only [List.eq_nil_iff_forall_not_mem, mem_sameLayer_iff planned]

theorem resetAll_eq_ok {lines : List Line} :
    resetAll sheets machine = .ok lines next ↔
      ∃ plan, machine.peelPlanAll sheets = .ok plan ∧
        resetBy plan (Text.bracketed sheets)
          (fun position => sheets.contains (machine.sheetOf position)) machine =
            .ok lines next := by
  rw [resetAll, run_get_bind]
  exact ask_bind_eq_ok

theorem chosenBy_single (alone : plan.sameLayer = []) :
    machine.chosenBy plan sheet = fun position => [sheet].contains (machine.sheetOf position) := by
  funext position
  rw [chosenBy, alone, List.contains_nil, Bool.or_false, List.contains_cons, List.contains_nil,
    Bool.or_false]

/-- A list of sheets is worked as the set of its members. One sheet in a list is worked as it is
alone, and refused where loops of other sheets lie in its layer. -/
structure WorksSheetSets (machine : Machine) : Prop where
  peelSingle : ∀ sheet work next, worked (peelAll [sheet] machine) = (.ok work, next) ↔
    ∃ lines, peel sheet machine = .ok (lines, []) next ∧ Line.work lines = work
  resetSingle : ∀ sheet work next, worked (resetAll [sheet] machine) = (.ok work, next) ↔
    worked (reset sheet machine) = (.ok work, next) ∧
      ∀ position, ¬machine.SharesLayer sheet position
  peelSet : ∀ first second, (∀ sheet, sheet ∈ first ↔ sheet ∈ second) →
    worked (peelAll first machine) = worked (peelAll second machine)
  resetSet : ∀ first second, (∀ sheet, sheet ∈ first ↔ sheet ∈ second) →
    worked (resetAll first machine) = worked (resetAll second machine)

theorem worksSheetSets_of_reachable (reachable : machine.Reachable) :
    machine.WorksSheetSets := by
  have shaped := reachable.sound.shaped
  have valid := reachable.validGauge
  constructor
  · intro sheet work next
    rw [worked_eq_ok]
    constructor
    · rintro ⟨_, peels, rfl⟩
      obtain ⟨plan, planned, ran⟩ := peelAll_eq_ok.mp peels
      obtain ⟨plannedAlone, alone⟩ := peelPlanAll_single.mp planned
      obtain ⟨lines, ranAlone, sameWork⟩ :=
        ran_of_worked (worked_peelBy shaped (peelPlan_fits plannedAlone) _ _) ran
      exact ⟨lines, peel_eq_ok.mpr ⟨plan, plannedAlone, alone, ranAlone⟩, sameWork⟩
    · rintro ⟨_, peels, rfl⟩
      obtain ⟨plan, plannedAlone, alone, ranAlone⟩ := peel_eq_ok.mp peels
      obtain ⟨lines, ran, sameWork⟩ :=
        ran_of_worked (worked_peelBy shaped (peelPlan_fits plannedAlone) _ _) ranAlone
      have planned := peelPlanAll_single.mpr ⟨plannedAlone, alone⟩
      exact ⟨lines, peelAll_eq_ok.mpr ⟨plan, planned, ran⟩, sameWork⟩
  · intro sheet work next
    rw [worked_eq_ok, worked_eq_ok]
    constructor
    · rintro ⟨_, resets, rfl⟩
      obtain ⟨plan, planned, ran⟩ := resetAll_eq_ok.mp resets
      obtain ⟨plannedAlone, alone⟩ := peelPlanAll_single.mp planned
      rw [← chosenBy_single alone] at ran
      obtain ⟨lines, ranAlone, sameWork⟩ :=
        ran_of_worked (worked_resetBy shaped (peelPlan_fits plannedAlone) _ _ _) ran
      exact ⟨⟨lines, reset_eq_ok.mpr ⟨plan, plannedAlone, ranAlone⟩, sameWork⟩,
        (sameLayer_eq_nil plannedAlone).mp alone⟩
    · rintro ⟨⟨_, resets, rfl⟩, noneShares⟩
      obtain ⟨plan, plannedAlone, ranAlone⟩ := reset_eq_ok.mp resets
      have alone := (sameLayer_eq_nil plannedAlone).mpr noneShares
      obtain ⟨lines, ran, sameWork⟩ :=
        ran_of_worked (worked_resetBy shaped (peelPlan_fits plannedAlone) _ _ _) ranAlone
      rw [chosenBy_single alone] at ran
      have planned := peelPlanAll_single.mpr ⟨plannedAlone, alone⟩
      exact ⟨lines, resetAll_eq_ok.mpr ⟨plan, planned, ran⟩, sameWork⟩
  · intro first second same
    exact worked_ask (sameCode_peelPlanAll same valid) fun plan planned =>
      worked_peelBy shaped (peelPlanAll_fits planned) _ _
  · intro first second same
    have chooses : (fun position => first.contains (machine.sheetOf position)) =
        fun position => second.contains (machine.sheetOf position) :=
      funext fun position => contains_congr same _
    rw [resetAll, resetAll, run_get_bind, run_get_bind, chooses]
    exact worked_ask (sameCode_peelPlanAll same valid) fun plan planned =>
      worked_resetBy shaped (peelPlanAll_fits planned) _ _ _

theorem worksSheetSets_blocked :
    let machine := (initial twoNeedles).afterAll [.apply (.inhook ⟨1⟩),
      .apply (.tuck (.front 0) [⟨1⟩] none), .apply (.tuck (.front 1) [⟨1⟩] none),
      .apply (.gauge 2)]
    (worked (peelAll [0, 0] machine)).1.toOption = some [(.xfer (.front 1) (.back 1), none)] ∧
      (worked (peelAll [2, 0, 3] machine)).1.toOption = none ∧ machine.WorksSheetSets :=
  ⟨by decide +kernel, by decide +kernel, worksSheetSets_of_reachable (reachable_twoNeedles _)⟩

end Machine

end VBed
