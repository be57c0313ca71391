import VBed.Machine.Reset
import VBed.Proofs.Racking
import VBed.Proofs.Work

/-!
Peeling and resetting are done to the end once their checks pass. What they leave is the fold of
their transfers: first the moves of the plan, off the record, then the returns, on record.
-/

namespace VBed.Machine

variable {machine : Machine} {plan : PeelPlan}

def crossed (machine : Machine) (needles : List Needle) : Machine :=
  needles.foldl (fun current needle => current.moved needle needle.opposite) machine

def returned (machine : Machine) (starts : List Needle) : Machine :=
  starts.foldl (fun current start => current.transferred start start.opposite) machine

def straightened (machine : Machine) (needles : List Needle) : Machine :=
  if needles.isEmpty then machine else { machine with racking := .zero }

structure Crossable (machine : Machine) (needle : Needle) : Prop where
  straight : machine.racking = .zero
  ordinary : needle.slider = false
  inRange : needle.position < machine.needleCount
  clear : machine.loops needle.asSlider = []
  oppositeClear : machine.loops needle.opposite.asSlider = []

@[simp] theorem crossed_cons (needle : Needle) (rest : List Needle) :
    machine.crossed (needle :: rest) = (machine.moved needle needle.opposite).crossed rest := rfl

theorem crossed_append (first second : List Needle) :
    machine.crossed (first ++ second) = (machine.crossed first).crossed second :=
  List.foldl_append

theorem opposite_side (needle : Needle) : needle.side ≠ needle.opposite.side := by
  cases needle with
  | mk side position slider => cases side <;> simp [Needle.opposite, Side.opposite]

@[simp] theorem racking_moved (start target : Needle) :
    (machine.moved start target).racking = machine.racking := by
  simp only [moved, put]
  cases start.side <;> cases target.side <;> rfl

@[simp] theorem gauge_moved (start target : Needle) :
    (machine.moved start target).gauge = machine.gauge := by
  simp only [moved, put]
  cases start.side <;> cases target.side <;> rfl

@[simp] theorem gauge_crossed (needles : List Needle) :
    (machine.crossed needles).gauge = machine.gauge := by
  induction needles generalizing machine with
  | nil => rfl
  | cons needle rest ih => rw [crossed_cons, ih, gauge_moved]

@[simp] theorem needleCount_crossed (needles : List Needle) :
    (machine.crossed needles).needleCount = machine.needleCount := by
  induction needles generalizing machine with
  | nil => rfl
  | cons needle rest ih => rw [crossed_cons, ih, needleCount_moved]

theorem Shaped.crossed (shaped : machine.Shaped) (needles : List Needle) :
    (machine.crossed needles).Shaped := by
  induction needles generalizing machine with
  | nil => exact shaped
  | cons needle rest ih => exact ih (shaped.moved needle needle.opposite)

theorem straightened_undisturbed (machine : Machine) (needles : List Needle) :
    machine.Undisturbed (machine.straightened needles) := by
  rw [straightened]
  split
  · exact Undisturbed.refl machine
  · exact ⟨rfl, rfl, rfl, rfl, rfl, rfl⟩

theorem Crossable.transfer (shaped : machine.Shaped) {needle : Needle}
    (crossable : machine.Crossable needle) :
    machine.checkTransfer needle needle.opposite = .ok () := by
  have word : needle.position < Text.wordCount := Nat.lt_trans crossable.inRange shaped.word
  exact (checkTransfer_eq_ok shaped).mpr ⟨crossable.inRange, crossable.inRange,
    opposite_side needle, Or.inr crossable.oppositeClear, Or.inr crossable.clear,
    checkFacing_straight crossable.straight rfl word⟩

/-- Moves between ordinary needles do not touch the sliders. -/
theorem loops_slider_moved (shaped : machine.Shaped) {needle : Needle}
    (ordinary : needle.slider = false) (inRange : needle.position < machine.needleCount)
    {slider : Needle} (isSlider : slider.slider = true) :
    (machine.moved needle needle.opposite).loops slider = machine.loops slider := by
  have notStart : slider ≠ needle := by
    intro same
    rw [same, ordinary] at isSlider
    cases isSlider
  have notTarget : slider ≠ needle.opposite := by
    intro same
    rw [same, Needle.opposite, ordinary] at isSlider
    cases isSlider
  have oppositeInRange : needle.opposite.position < machine.needleCount := inRange
  rw [loops_moved shaped inRange oppositeInRange, if_neg notTarget, if_neg notStart]

theorem Crossable.moved (shaped : machine.Shaped) {needle other : Needle}
    (crossable : machine.Crossable needle) (otherCrossable : machine.Crossable other) :
    (machine.moved needle needle.opposite).Crossable other where
  straight := by rw [racking_moved, otherCrossable.straight]
  ordinary := otherCrossable.ordinary
  inRange := by simpa using otherCrossable.inRange
  clear := by
    rw [loops_slider_moved shaped crossable.ordinary crossable.inRange rfl, otherCrossable.clear]
  oppositeClear := by
    rw [loops_slider_moved shaped crossable.ordinary crossable.inRange rfl,
      otherCrossable.oppositeClear]

theorem Crossable.crossed (shaped : machine.Shaped) {needles : List Needle}
    (crossable : ∀ needle ∈ needles, machine.Crossable needle) {other : Needle}
    (otherCrossable : machine.Crossable other) : (machine.crossed needles).Crossable other := by
  induction needles generalizing machine with
  | nil => exact otherCrossable
  | cons needle rest ih =>
      have first := crossable needle (by simp)
      exact ih (shaped.moved needle needle.opposite)
        (fun next member => first.moved shaped (crossable next (by simp [member])))
        (first.moved shaped otherCrossable)

theorem mapM_moveAcross (shaped : machine.Shaped) {needles : List Needle}
    (crossable : ∀ needle ∈ needles, machine.Crossable needle) :
    needles.mapM moveAcross machine =
      .ok (needles.map fun needle => .plain (.xfer needle needle.opposite))
        (machine.crossed needles) := by
  induction needles generalizing machine with
  | nil => rfl
  | cons needle rest ih =>
      have first := crossable needle (by simp)
      have moves : moveAcross needle machine = .ok (.plain (.xfer needle needle.opposite))
          (machine.moved needle needle.opposite) := by
        rw [moveAcross, run_bind_ok (shift_done shaped (first.transfer shaped))]
        rfl
      have later := ih (shaped.moved needle needle.opposite)
        (fun next member => first.moved shaped (crossable next (by simp [member])))
      rw [List.mapM_cons, run_bind_ok moves, run_bind_ok later]
      rfl

theorem movesOf_crossed (needles : List Needle) (sheet : Nat) :
    plan.movesOf (machine.crossed needles) sheet = plan.movesOf machine sheet := by
  simp only [PeelPlan.movesOf, sheetOf, gauge_crossed]

def PeelPlan.lines (plan : PeelPlan) (machine : Machine) (active : String) (sheet : Nat) :
    List Line :=
  .comment (" Peel sheet " ++ Text.decimal sheet ++ " relative to " ++ active) ::
    (plan.movesOf machine sheet).map fun needle => .plain (.xfer needle needle.opposite)

theorem mapM_peelSheet (shaped : machine.Shaped) (active : String) (sheets : List Nat)
    (crossable : ∀ sheet ∈ sheets, ∀ needle ∈ plan.movesOf machine sheet,
      machine.Crossable needle) :
    sheets.mapM (peelSheet plan active) machine =
      .ok (sheets.map (plan.lines machine active))
        (machine.crossed (sheets.flatMap (plan.movesOf machine))) := by
  induction sheets generalizing machine with
  | nil => rfl
  | cons sheet rest ih =>
      let needles := plan.movesOf machine sheet
      have first := crossable sheet (by simp)
      have peeled : peelSheet plan active sheet machine =
          .ok (plan.lines machine active sheet) (machine.crossed needles) := by
        rw [peelSheet, run_get_bind, run_bind_ok (mapM_moveAcross shaped first)]
        rfl
      have sameMoves : plan.movesOf (machine.crossed needles) = plan.movesOf machine :=
        funext (movesOf_crossed needles)
      have sameLines : plan.lines (machine.crossed needles) active = plan.lines machine active := by
        funext other
        simp only [PeelPlan.lines, sameMoves]
      have later := ih (shaped.crossed needles) (by
        intro other member needle moves
        rw [sameMoves] at moves
        exact (crossable other (by simp [member]) needle moves).crossed shaped first)
      rw [sameMoves, sameLines] at later
      rw [List.mapM_cons, run_bind_ok peeled, run_bind_ok later, List.flatMap_cons, crossed_append]
      rfl

theorem carryOut_done (shaped : machine.Shaped) (active : String)
    (crossable : ∀ needle ∈ plan.ordered machine, machine.Crossable needle) :
    carryOut plan active machine =
      .ok ((List.range machine.gauge).flatMap (plan.lines machine active))
        (machine.crossed (plan.ordered machine)) := by
  have peeled := mapM_peelSheet shaped active (List.range machine.gauge) (by
    intro sheet member needle moves
    exact crossable needle (List.mem_flatMap.mpr ⟨sheet, member, moves⟩))
  rw [carryOut, run_get_bind, run_bind_ok peeled]
  rfl

def straightenLines (machine : Machine) (needles : List Needle) : List Line :=
  if needles.isEmpty then [] else machine.rackLines .zero

theorem straightenFor_done (shaped : machine.Shaped) (needles : List Needle) :
    straightenFor needles machine =
      .ok (machine.straightenLines needles) (machine.straightened needles) := by
  rw [straightenFor, straightened, straightenLines]
  split
  · rfl
  · rw [straighten, run_bind_ok (setRacking_done (checkRacking_zero shaped.valid))]
    rfl

structure PeelPlan.Fits (plan : PeelPlan) (machine : Machine) (sheets : List Nat) : Prop where
  ordinary : ∀ needle ∈ plan.moves, needle.slider = false
  inRange : ∀ needle ∈ plan.moves, needle.position < machine.needleCount
  held : ∀ needle ∈ plan.moves, machine.loops needle ≠ []
  inactive : ∀ needle ∈ plan.moves, machine.sheetOf needle.position ∉ sheets
  apart : ∀ needle ∈ plan.moves, needle.position ∉ plan.sameLayer

theorem mem_otherPositions {sheets : List Nat} {position : Nat} :
    position ∈ machine.otherPositions sheets ↔
      position < machine.needleCount ∧ (machine.presence position).any = true ∧
        machine.sheetOf position ∉ sheets := by
  simp [otherPositions]

/-- The needle that blocks a sheet holds loops at its position, and lies in another layer. -/
theorem blocker_facts {activeLayer position : Nat} {needle : Needle}
    (found : machine.blocker? activeLayer position = some needle) :
    needle.position = position ∧ needle.slider = false ∧ machine.loops needle ≠ [] ∧
      machine.layer position ≠ activeLayer := by
  simp only [blocker?] at found
  split at found
  · rename_i behind
    cases found
    refine ⟨rfl, rfl, ?_, by omega⟩
    simpa [presence_eq] using behind.2
  · split at found
    · rename_i before
      cases found
      refine ⟨rfl, rfl, ?_, by omega⟩
      simpa [presence_eq] using before.2
    · cases found

theorem blockers_fit (sheets sameLayer : List Nat) (activeLayer : Nat → Nat)
    (apart : ∀ position ∈ sameLayer, machine.layer position = activeLayer position) :
    PeelPlan.Fits ⟨(machine.otherPositions sheets).filterMap fun position =>
      machine.blocker? (activeLayer position) position, sameLayer⟩ machine sheets := by
  have facts : ∀ needle ∈ (machine.otherPositions sheets).filterMap fun position =>
      machine.blocker? (activeLayer position) position,
      needle.position ∈ machine.otherPositions sheets ∧ needle.slider = false ∧
        machine.loops needle ≠ [] ∧
          machine.layer needle.position ≠ activeLayer needle.position := by
    intro needle member
    obtain ⟨position, other, found⟩ := List.mem_filterMap.mp member
    obtain ⟨rfl, ordinary, held, differs⟩ := blocker_facts found
    exact ⟨other, ordinary, held, differs⟩
  constructor
  · exact fun needle member => (facts needle member).2.1
  · exact fun needle member => (mem_otherPositions.mp (facts needle member).1).1
  · exact fun needle member => (facts needle member).2.2.1
  · exact fun needle member => (mem_otherPositions.mp (facts needle member).1).2.2
  · exact fun needle member same => (facts needle member).2.2.2 (apart _ same)

theorem layer_of_sameLayer {sheet position : Nat} (planned : machine.peelPlan sheet = .ok plan)
    (member : position ∈ plan.sameLayer) :
    machine.layer position = machine.sheetLayer sheet position := by
  simp only [peelPlan, then_eq_ok, pure_eq_ok] at planned
  obtain ⟨_, rfl⟩ := planned
  simpa using (List.mem_filter.mp member).2

theorem peelPlan_fits {sheet : Nat} (planned : machine.peelPlan sheet = .ok plan) :
    plan.Fits machine [sheet] := by
  have sameLayer : ∀ position ∈ plan.sameLayer,
      machine.layer position = machine.sheetLayer sheet position :=
    fun _ => layer_of_sameLayer planned
  simp only [peelPlan, then_eq_ok, pure_eq_ok] at planned
  obtain ⟨_, rfl⟩ := planned
  exact blockers_fit _ _ _ sameLayer

theorem peelPlanAll_fits {sheets : List Nat} (planned : machine.peelPlanAll sheets = .ok plan) :
    plan.Fits machine sheets := by
  simp only [peelPlanAll, throw_bind, refusal_eq_ok, then_eq_ok, pure_eq_ok] at planned
  obtain ⟨_, _, _, rfl⟩ := planned
  exact blockers_fit sheets [] (machine.sharedLayer sheets) (by simp)

theorem mem_ordered {needle : Needle} (member : needle ∈ plan.ordered machine) :
    needle ∈ plan.moves := by
  obtain ⟨sheet, _, moves⟩ := List.mem_flatMap.mp member
  exact (List.mem_filter.mp moves).1

theorem straightened_straight {needles : List Needle} {needle : Needle}
    (member : needle ∈ needles) :
    (machine.straightened needles).racking = .zero := by
  cases needles with
  | nil => cases member
  | cons first rest => rfl

/-- Needles whose crossings are checked are crossable once the machine is straightened. -/
theorem crossable_of_checked (shaped : machine.Shaped) {checked movers : List Needle}
    (clear : machine.checkCrossings checked = .ok ()) {needle : Needle} (member : needle ∈ checked)
    (mover : needle ∈ movers) (ordinary : needle.slider = false)
    (inRange : needle.position < machine.needleCount) :
    (machine.straightened movers).Crossable needle := by
  have undisturbed := machine.straightened_undisturbed movers
  obtain ⟨first, second⟩ := then_eq_ok.mp ((forM_eq_ok checked).mp clear needle member)
  have oppositeInRange : needle.opposite.position < machine.needleCount := inRange
  have startClear := (checkClear_eq_ok shaped inRange).mp first
  have targetClear := (checkClear_eq_ok shaped oppositeInRange).mp second
  have oppositeOrdinary : needle.opposite.slider = false := ordinary
  simp only [Clear, ordinary, oppositeOrdinary, Bool.false_eq_true, false_or]
    at startClear targetClear
  exact ⟨straightened_straight mover, ordinary, by rwa [undisturbed.needleCount],
    by rw [undisturbed.loops, startClear], by rw [undisturbed.loops, targetClear]⟩

theorem ordered_straightened (needles : List Needle) :
    plan.ordered (machine.straightened needles) = plan.ordered machine := by
  rw [straightened]
  split <;> rfl

theorem PeelPlan.Fits.crossable (shaped : machine.Shaped) {sheets : List Nat}
    (fits : plan.Fits machine sheets)
    (checked : machine.checkCrossings (plan.ordered machine) = .ok ()) :
    ∀ needle ∈ plan.ordered machine, (machine.straightened plan.moves).Crossable needle := by
  intro needle member
  have moves := mem_ordered member
  exact crossable_of_checked shaped checked member moves (fits.ordinary needle moves)
    (fits.inRange needle moves)

theorem lines_straightened (needles : List Needle) (active : String) :
    (List.range (machine.straightened needles).gauge).flatMap
        (plan.lines (machine.straightened needles) active) =
      (List.range machine.gauge).flatMap (plan.lines machine active) := by
  rw [straightened]
  split <;> rfl

def peelLines (machine : Machine) (plan : PeelPlan) (needles : List Needle) (active : String) :
    List Line :=
  machine.straightenLines needles ++ (List.range machine.gauge).flatMap (plan.lines machine active)

/-- Loops return when they all lie on one side and are on record for the other alone. -/
theorem returnStart?_eq_some {recorded current : Presence} {position : Nat} {start : Needle} :
    returnStart? recorded current position = .ok (some start) ↔
      start.position = position ∧ start.slider = false ∧
        recorded = .only start.side.opposite ∧ current = .only start.side := by
  constructor
  · obtain ⟨recordedFront, recordedBack⟩ := recorded
    obtain ⟨currentFront, currentBack⟩ := current
    intro found
    cases recordedFront <;> cases recordedBack <;> cases currentFront <;> cases currentBack <;>
      cases found <;> exact ⟨rfl, rfl, rfl, rfl⟩
  · obtain ⟨side, position, slider⟩ := start
    rintro ⟨rfl, rfl, rfl, rfl⟩
    cases side <;> rfl

theorem projected_settled {position : Nat}
    (elsewhere : ∀ needle ∈ plan.moves, position ≠ needle.position) :
    plan.projected machine position = machine.presence position := by
  rw [PeelPlan.projected, if_neg, if_neg]
  · simpa using fun member => elsewhere _ member rfl
  · simpa using fun member => elsewhere _ member rfl

theorem returnPlan_facts {chosen : Nat → Bool} {returns : List Needle}
    (planned : machine.returnPlan plan chosen = .ok returns) :
    (∀ position < machine.needleCount, chosen position = true →
      ∃ start, returnStart? (machine.onRecord position) (plan.projected machine position)
        position = .ok start ∧ ∀ needle, start = some needle → needle ∈ returns) ∧
    ∀ start ∈ returns, ∃ position < machine.needleCount, chosen position = true ∧
      returnStart? (machine.onRecord position) (plan.projected machine position) position =
        .ok (some start) := by
  simp only [returnPlan, bind_eq_ok, pure_eq_ok] at planned
  obtain ⟨starts, found, rfl⟩ := planned
  obtain ⟨forward, backward⟩ := mem_of_mapM_ok found
  constructor
  · intro position inRange isChosen
    obtain ⟨start, member, answers⟩ := forward position (by simp [inRange, isChosen])
    refine ⟨start, answers, ?_⟩
    rintro needle rfl
    simpa using member
  · intro start member
    obtain ⟨found, inStarts, same⟩ := List.mem_filterMap.mp member
    simp only [id_eq] at same
    subst same
    obtain ⟨position, isChosen, answers⟩ := backward _ inStarts
    simp only [List.mem_filter, List.mem_range] at isChosen
    exact ⟨position, isChosen.1, isChosen.2, answers⟩

theorem returns_fit {chosen : Nat → Bool} {returns : List Needle}
    (planned : machine.returnPlan plan chosen = .ok returns) {start : Needle}
    (member : start ∈ returns) :
    start.slider = false ∧ start.position < machine.needleCount := by
  obtain ⟨position, inRange, _, found⟩ := (returnPlan_facts planned).2 start member
  obtain ⟨rfl, ordinary, _⟩ := returnStart?_eq_some.mp found
  exact ⟨ordinary, inRange⟩

theorem PeelPlan.Fits.crossableReturns (shaped : machine.Shaped) {sheets : List Nat}
    (fits : plan.Fits machine sheets) {chosen : Nat → Bool} {returns : List Needle}
    (planned : machine.returnPlan plan chosen = .ok returns)
    (checked : machine.checkCrossings (plan.ordered machine ++ returns) = .ok ()) :
    ∀ needle ∈ plan.ordered machine ++ returns,
      (machine.straightened (plan.moves ++ returns)).Crossable needle := by
  intro needle member
  rcases List.mem_append.mp member with ordered | returning
  · have moves := mem_ordered ordered
    exact crossable_of_checked shaped checked member (by simp [moves])
      (fits.ordinary needle moves) (fits.inRange needle moves)
  · obtain ⟨ordinary, inRange⟩ := returns_fit planned returning
    exact crossable_of_checked shaped checked member (by simp [returning]) ordinary inRange

theorem Shaped.transferred (shaped : machine.Shaped) (start target : Needle) :
    (machine.transferred start target).Shaped :=
  ((shaped.moved start target).recorded _).recorded _

@[simp] theorem needleCount_transferred (start target : Needle) :
    (machine.transferred start target).needleCount = machine.needleCount := by
  simp [transferred]

@[simp] theorem loops_transferred (start target needle : Needle) :
    (machine.transferred start target).loops needle =
      (machine.moved start target).loops needle := by
  simp [transferred]

theorem Crossable.transferred (shaped : machine.Shaped) {start other : Needle}
    (crossable : machine.Crossable start) (otherCrossable : machine.Crossable other) :
    (machine.transferred start start.opposite).Crossable other := by
  have moved := crossable.moved shaped otherCrossable
  exact ⟨moved.straight, moved.ordinary, moved.inRange,
    by rw [loops_transferred, moved.clear], by rw [loops_transferred, moved.oppositeClear]⟩

theorem loopsAt_inRange (shaped : machine.Shaped) {needle : Needle}
    (inRange : needle.position < machine.needleCount) :
    machine.loopsAt needle = .ok (machine.loops needle) :=
  Bed.loopsAt_eq_ok.mpr (at?_of_inRange shaped inRange)

def returnLines (machine : Machine) : List Needle → List Line
  | [] => []
  | start :: rest =>
      .instruction (.xfer start start.opposite) (some (returnNote start (machine.loops start))) ::
        (machine.transferred start start.opposite).returnLines rest

theorem mapM_returnLoops (shaped : machine.Shaped) {starts : List Needle}
    (crossable : ∀ start ∈ starts, machine.Crossable start) :
    starts.mapM returnLoops machine =
      .ok (machine.returnLines starts) (machine.returned starts) := by
  induction starts generalizing machine with
  | nil => rfl
  | cons start rest ih =>
      have first := crossable start (by simp)
      have later := ih (shaped.transferred start start.opposite)
        (fun next member => first.transferred shaped (crossable next (by simp [member])))
      have returns : returnLoops start machine = .ok
          (.instruction (.xfer start start.opposite)
            (some (returnNote start (machine.loops start))))
          (machine.transferred start start.opposite) := by
        rw [returnLoops, run_bind_ok (ask_ok (loopsAt_inRange shaped first.inRange)),
          run_bind_ok (xfer_done shaped (first.transfer shaped))]
        rfl
      rw [List.mapM_cons, run_bind_ok returns, run_bind_ok later]
      rfl

def restored (machine : Machine) (plan : PeelPlan) (returns : List Needle) : Machine :=
  ((machine.straightened (plan.moves ++ returns)).crossed (plan.ordered machine)).returned returns

def resetLines (machine : Machine) (plan : PeelPlan) (returns : List Needle) (active : String) :
    List Line :=
  machine.peelLines plan (plan.moves ++ returns) active ++
    ((machine.straightened (plan.moves ++ returns)).crossed (plan.ordered machine)).returnLines
      returns

/-- A reset up to a point among its returns: the moves of the plan are made, and then the returns
that come before that point. -/
def resetUpTo (plan : PeelPlan) (active : String) (returns made : List Needle) :
    Action (List Line) := do
  return (← straightenFor (plan.moves ++ returns)) ++ (← carryOut plan active) ++
    (← made.mapM returnLoops)

theorem resetUpTo_done (shaped : machine.Shaped) (active : String) {returns made : List Needle}
    (crossable : ∀ needle ∈ plan.ordered machine ++ made,
      (machine.straightened (plan.moves ++ returns)).Crossable needle) :
    let middle := (machine.straightened (plan.moves ++ returns)).crossed (plan.ordered machine)
    resetUpTo plan active returns made machine =
      .ok (machine.peelLines plan (plan.moves ++ returns) active ++ middle.returnLines made)
        (middle.returned made) := by
  let movers := plan.moves ++ returns
  let straight := machine.straightened movers
  have straightShaped : straight.Shaped :=
    (straightened_undisturbed machine movers).shaped shaped
  have straightens := straightenFor_done shaped movers
  have moving : ∀ needle ∈ plan.ordered straight, straight.Crossable needle := by
    intro needle member
    rw [ordered_straightened] at member
    exact crossable needle (List.mem_append_left made member)
  have returning : ∀ start ∈ made, straight.Crossable start :=
    fun start member => crossable start (List.mem_append_right _ member)
  -- Moves between ordinary needles keep the sliders clear for the returns.
  have carried := carryOut_done straightShaped active moving
  have last := mapM_returnLoops (straightShaped.crossed (plan.ordered straight))
    (fun start member => (returning start member).crossed straightShaped moving)
  rw [ordered_straightened] at carried last
  rw [lines_straightened] at carried
  rw [resetUpTo, run_bind_ok straightens, run_bind_ok carried, run_bind_ok last]
  rfl

/-- Peeling whose checks pass is a reset without returns. -/
theorem peelBy_of_checked {active : String}
    (checked : machine.checkCrossings (plan.ordered machine) = .ok ()) :
    peelBy plan active machine = resetUpTo plan active [] [] machine := by
  rw [peelBy, run_bind_ok (ask_ok checked), resetUpTo]
  simp only [List.append_nil, List.mapM_nil, pure_bind]

theorem resetBy_of_checked {active : String} {chosen : Nat → Bool} {returns : List Needle}
    (planned : machine.returnPlan plan chosen = .ok returns)
    (checked : machine.checkCrossings (plan.ordered machine ++ returns) = .ok ()) :
    resetBy plan active chosen machine = resetUpTo plan active returns returns machine := by
  rw [resetBy, run_bind_ok (ask_ok planned), run_bind_ok (ask_ok checked)]
  rfl

/-- Peeling is refused by its checks, or makes all moves of the plan. -/
theorem peelBy_run (shaped : machine.Shaped) {sheets : List Nat} (fits : plan.Fits machine sheets)
    (active : String) :
    (∃ fault, machine.checkCrossings (plan.ordered machine) = .error fault ∧
      peelBy plan active machine = .error fault machine) ∨
    (machine.checkCrossings (plan.ordered machine) = .ok () ∧
      peelBy plan active machine =
        .ok (machine.peelLines plan plan.moves active)
          ((machine.straightened plan.moves).crossed (plan.ordered machine))) := by
  cases checked : machine.checkCrossings (plan.ordered machine) with
  | error fault => exact Or.inl ⟨fault, rfl, run_bind_error (ask_error checked)⟩
  | ok passed =>
      refine Or.inr ⟨rfl, ?_⟩
      have crossable := fits.crossable shaped checked
      rw [← List.append_nil plan.moves, ← List.append_nil (plan.ordered machine)] at crossable
      rw [peelBy_of_checked checked, resetUpTo_done shaped active crossable]
      simp only [List.append_nil, returnLines, returned, List.foldl_nil]

/-- Resetting is refused by its checks, or makes all moves of the plan and all returns. -/
theorem resetBy_run (shaped : machine.Shaped) {sheets : List Nat} (fits : plan.Fits machine sheets)
    (active : String) (chosen : Nat → Bool) :
    (∃ fault, resetBy plan active chosen machine = .error fault machine ∧
      (machine.returnPlan plan chosen = .error fault ∨
        ∃ returns, machine.returnPlan plan chosen = .ok returns ∧
          machine.checkCrossings (plan.ordered machine ++ returns) = .error fault)) ∨
    ∃ returns, machine.returnPlan plan chosen = .ok returns ∧
      machine.checkCrossings (plan.ordered machine ++ returns) = .ok () ∧
      resetBy plan active chosen machine =
        .ok (machine.resetLines plan returns active) (machine.restored plan returns) := by
  cases planned : machine.returnPlan plan chosen with
  | error fault =>
      exact Or.inl ⟨fault, run_bind_error (ask_error planned), Or.inl rfl⟩
  | ok returns =>
      cases checked : machine.checkCrossings (plan.ordered machine ++ returns) with
      | error fault =>
          refine Or.inl ⟨fault, ?_, Or.inr ⟨returns, rfl, checked⟩⟩
          rw [resetBy, run_bind_ok (ask_ok planned), run_bind_error (ask_error checked)]
      | ok passed =>
          refine Or.inr ⟨returns, rfl, checked, ?_⟩
          rw [resetBy_of_checked planned checked]
          exact resetUpTo_done shaped active (fits.crossableReturns shaped planned checked)

section Preservation

variable (motive : Machine → Prop)

theorem crossed_preserves
    (cross : ∀ (current : Machine) (needle : Needle), current.Shaped → needle.slider = false →
      needle.position < current.needleCount → motive current →
        motive (current.moved needle needle.opposite))
    (shaped : machine.Shaped) {needles : List Needle}
    (ordinary : ∀ needle ∈ needles, needle.slider = false)
    (inRange : ∀ needle ∈ needles, needle.position < machine.needleCount)
    (holds : motive machine) : motive (machine.crossed needles) := by
  induction needles generalizing machine with
  | nil => exact holds
  | cons needle rest ih =>
      refine ih (shaped.moved needle needle.opposite)
        (fun other member => ordinary other (by simp [member])) (fun other member => ?_)
        (cross machine needle shaped (ordinary needle (by simp)) (inRange needle (by simp)) holds)
      rw [needleCount_moved]
      exact inRange other (by simp [member])

theorem returned_preserves
    (back : ∀ (current : Machine) (start : Needle), current.Shaped → start.slider = false →
      start.position < current.needleCount → motive current →
        motive (current.transferred start start.opposite))
    (shaped : machine.Shaped) {starts : List Needle}
    (ordinary : ∀ start ∈ starts, start.slider = false)
    (inRange : ∀ start ∈ starts, start.position < machine.needleCount)
    (holds : motive machine) : motive (machine.returned starts) := by
  induction starts generalizing machine with
  | nil => exact holds
  | cons start rest ih =>
      refine ih (shaped.transferred start start.opposite)
        (fun other member => ordinary other (by simp [member])) (fun other member => ?_)
        (back machine start shaped (ordinary start (by simp)) (inRange start (by simp)) holds)
      rw [needleCount_transferred]
      exact inRange other (by simp [member])

theorem peeled_preserves
    (cross : ∀ (current : Machine) (needle : Needle), current.Shaped → needle.slider = false →
      needle.position < current.needleCount → motive current →
        motive (current.moved needle needle.opposite))
    (shaped : machine.Shaped) {sheets : List Nat} (fits : plan.Fits machine sheets)
    {straight : List Needle} (holds : motive (machine.straightened straight)) :
    motive ((machine.straightened straight).crossed (plan.ordered machine)) := by
  have undisturbed := machine.straightened_undisturbed straight
  refine crossed_preserves motive cross (undisturbed.shaped shaped) ?_ ?_ holds
  · exact fun needle member => fits.ordinary needle (mem_ordered member)
  · intro needle member
    rw [undisturbed.needleCount]
    exact fits.inRange needle (mem_ordered member)

theorem restored_preserves
    (cross : ∀ (current : Machine) (needle : Needle), current.Shaped → needle.slider = false →
      needle.position < current.needleCount → motive current →
        motive (current.moved needle needle.opposite))
    (back : ∀ (current : Machine) (start : Needle), current.Shaped → start.slider = false →
      start.position < current.needleCount → motive current →
        motive (current.transferred start start.opposite))
    (shaped : machine.Shaped) {sheets : List Nat} (fits : plan.Fits machine sheets)
    {chosen : Nat → Bool} {returns : List Needle}
    (planned : machine.returnPlan plan chosen = .ok returns)
    (holds : motive (machine.straightened (plan.moves ++ returns))) :
    motive (machine.restored plan returns) := by
  have undisturbed := machine.straightened_undisturbed (plan.moves ++ returns)
  have straight := undisturbed.shaped shaped
  refine returned_preserves motive back (straight.crossed _) ?_ ?_
    (peeled_preserves motive cross shaped fits holds)
  · exact fun start member => (returns_fit planned member).1
  · intro start member
    rw [needleCount_crossed, undisturbed.needleCount]
    exact (returns_fit planned member).2

end Preservation

end VBed.Machine
