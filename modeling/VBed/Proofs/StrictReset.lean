import VBed.Proofs.StrictPeeling

/-!
Strict resets. The moves of a gathered plan are projected onto the presence of loops one after
another, and the positions that go back are looked up in the record and among the marked ones.
-/

namespace VBed

namespace Strict

open Machine (ConfiguredAt PeelPlan ask)

def crossing (needle : Needle) : Presence :=
  match needle.side with
  | .front => ⟨false, true⟩
  | .back => ⟨true, false⟩

def project (gathered : Gathered) : Strict Machine (Array Presence) := do
  let before ← lift (ask fun machine =>
    (List.range machine.needleCount).mapM machine.presenceAt)
  site (gathered.moves.foldlM (fun projected needle =>
    change projected needle.position fun _ => crossing needle) before.toArray)

def planReturns (projected : Array Presence) (selected : Nat → Option Bool) :
    Strict Machine (List Needle) := do
  let starts ← projected.toList.zipIdx.mapM fun (current, position) => do
    if ← site (selected position) then
      let recorded ← site (← lift get).record[position]?
      lift (ask fun _ => Machine.returnStart? recorded current position)
    else return none
  return starts.filterMap id

def returnLoops (start : Needle) : Strict Machine Line := do
  let loops ← lift (ask (·.loopsAt start))
  let _ ← xfer start start.opposite
  return .instruction (.xfer start start.opposite) (some (Machine.returnNote start loops))

def resetBy (gathered : Gathered) (returns : List Needle) (active : String) :
    Strict Machine (List Line) := do
  lift (ask (·.checkCrossings (gathered.moves ++ returns)))
  return (← lift (Machine.straightenFor (gathered.moves ++ returns))) ++
    (← carryOut gathered active) ++ (← returns.mapM returnLoops)

def marks (gathered : Gathered) (needleCount : Nat) : Option (Array Bool) :=
  gathered.sameLayer.foldlM (write · · true) (Array.replicate needleCount false)

def reset (sheet : Nat) : Strict Machine (List Line) := do
  let gathered ← gather sheet
  let projected ← project gathered
  let machine ← lift get
  let marked ← site (marks gathered machine.needleCount)
  let returns ← planReturns projected fun position => do
    return (← remainder position machine.gauge) == sheet || (← marked[position]?)
  resetBy gathered returns (Text.decimal sheet)

def resetAll (sheets : List Nat) : Strict Machine (List Line) := do
  let gathered ← gatherAll sheets
  let projected ← project gathered
  let machine ← lift get
  let returns ← planReturns projected fun position => do
    return sheets.contains (← remainder position machine.gauge)
  resetBy gathered returns (Text.bracketed sheets)

section Returning

variable {machine : Machine} {plan : PeelPlan} {gauge : Nat}

def crossedPresence (needles : List Needle) (position : Nat) (present : Presence) : Presence :=
  if needles.contains (.front position) then ⟨false, true⟩
  else if needles.contains (.back position) then ⟨true, false⟩
  else present

structure Apart (needles : List Needle) : Prop where
  ordinary : ∀ needle ∈ needles, needle.slider = false
  single : ∀ first ∈ needles, ∀ second ∈ needles, first.position = second.position → first = second

theorem Apart.tail {needle : Needle} {rest : List Needle} (apart : Apart (needle :: rest)) :
    Apart rest where
  ordinary other member := apart.ordinary other (by simp [member])
  single first inRest second alsoInRest :=
    apart.single first (by simp [inRest]) second (by simp [alsoInRest])

/-- Of a needle and the one that faces it only one is moved, so the moves can be made in any
order. -/
theorem Apart.crossedPresence_cons {needle : Needle} {rest : List Needle}
    (apart : Apart (needle :: rest)) (position : Nat) (present : Presence) :
    crossedPresence rest position
        (if needle.position = position then crossing needle else present) =
      crossedPresence (needle :: rest) position present := by
  obtain ⟨side, here, slider⟩ := needle
  obtain rfl : slider = false := apart.ordinary _ (List.mem_cons_self ..)
  by_cases same : here = position
  · subst here
    have lone : ∀ other ∈ rest, other.position = position → other = ⟨side, position, false⟩ :=
      fun other member facing => apart.single other (by simp [member]) _ (by simp) facing
    cases side with
    | front =>
        have noBack : Needle.back position ∉ rest := fun member => by
          cases lone _ member rfl
        simp [crossedPresence, crossing, noBack, Needle.front]
    | back =>
        simp [crossedPresence, crossing, Needle.front, Needle.back]
  · have front : Needle.front position ≠ ⟨side, here, false⟩ := fun equal =>
      same (congrArg Needle.position equal).symm
    have back : Needle.back position ≠ ⟨side, here, false⟩ := fun equal =>
      same (congrArg Needle.position equal).symm
    simp [crossedPresence, same, front, back]

theorem foldlM_crossing {needles : List Needle} (apart : Apart needles) {before : Array Presence}
    (inRange : ∀ needle ∈ needles, needle.position < before.size) :
    ∃ after, needles.foldlM (fun projected needle =>
        change projected needle.position fun _ => crossing needle) before = some after ∧
      ∀ position, after[position]? = before[position]?.map (crossedPresence needles position) := by
  induction needles generalizing before with
  | nil =>
      refine ⟨before, rfl, fun position => ?_⟩
      cases before[position]? <;> rfl
  | cons needle rest ih =>
      have here := inRange needle (by simp)
      have later : ∀ other ∈ rest, other.position <
          (before.modify needle.position fun _ => crossing needle).size := by
        intro other member
        rw [Array.size_modify]
        exact inRange other (by simp [member])
      obtain ⟨after, ran, found⟩ := ih apart.tail later
      refine ⟨after, ?_, fun position => ?_⟩
      · rw [List.foldlM_cons, change_of_lt here]
        exact ran
      · rw [found, Array.getElem?_modify]
        cases before[position]? with
        | none => split <;> rfl
        | some present =>
            have settled := apart.crossedPresence_cons position present
            split at settled
            · rename_i same
              simp [same, ← settled]
            · rename_i elsewhere
              simp [elsewhere, ← settled]

theorem foldlM_write {positions : List Nat} {before : Array Bool}
    (inRange : ∀ position ∈ positions, position < before.size) :
    ∃ after, positions.foldlM (write · · true) before = some after ∧
      ∀ position, after[position]? = before[position]?.map (positions.contains position || ·) := by
  induction positions generalizing before with
  | nil =>
      refine ⟨before, rfl, fun position => ?_⟩
      cases before[position]? <;> rfl
  | cons first rest ih =>
      have here := inRange first (by simp)
      have later : ∀ other ∈ rest, other < (before.setIfInBounds first true).size := by
        intro other member
        rw [Array.size_setIfInBounds]
        exact inRange other (by simp [member])
      obtain ⟨after, ran, found⟩ := ih later
      refine ⟨after, ?_, fun position => ?_⟩
      · rw [List.foldlM_cons, write_of_lt here]
        exact ran
      · rw [found, Array.getElem?_setIfInBounds]
        by_cases same : first = position
        · subst first
          simp [here]
        · simp [same, Ne.symm same]

structure Indexed (machine : Machine) (plan : PeelPlan) : Prop where
  apart : Apart plan.moves
  inRange : ∀ needle ∈ plan.moves, needle.position < machine.needleCount
  sameLayer : ∀ position ∈ plan.sameLayer, position < machine.needleCount

theorem indexed_blockers {sheets : List Nat} (activeLayer : Nat → Nat) {sameLayer : List Nat}
    (inRange : ∀ position ∈ sameLayer, position < machine.needleCount) :
    Indexed machine ⟨(machine.otherPositions sheets).filterMap fun position =>
      machine.blocker? (activeLayer position) position, sameLayer⟩ := by
  have facts : ∀ needle ∈ (machine.otherPositions sheets).filterMap fun position =>
      machine.blocker? (activeLayer position) position,
      machine.blocker? (activeLayer needle.position) needle.position = some needle ∧
        needle.position < machine.needleCount ∧ needle.slider = false := by
    intro needle member
    obtain ⟨position, other, found⟩ := List.mem_filterMap.mp member
    obtain ⟨rfl, ordinary, _⟩ := Machine.blocker_facts found
    exact ⟨found, (Machine.mem_otherPositions.mp other).1, ordinary⟩
  refine ⟨⟨fun needle member => (facts needle member).2.2, ?_⟩,
    fun needle member => (facts needle member).2.1, inRange⟩
  intro first inFirst second inSecond same
  have found := (facts first inFirst).1
  rw [same, (facts second inSecond).1] at found
  exact (Option.some.inj found).symm

theorem peelPlan_indexed {sheet : Nat} (planned : machine.peelPlan sheet = .ok plan) :
    Indexed machine plan := by
  simp only [Machine.peelPlan, then_eq_ok, pure_eq_ok] at planned
  obtain ⟨_, rfl⟩ := planned
  refine indexed_blockers _ fun position member => ?_
  exact (Machine.mem_otherPositions.mp (List.mem_filter.mp member).1).1

theorem peelPlanAll_indexed {sheets : List Nat}
    (planned : machine.peelPlanAll sheets = .ok plan) : Indexed machine plan := by
  simp only [Machine.peelPlanAll, throw_bind, refusal_eq_ok, then_eq_ok, pure_eq_ok] at planned
  obtain ⟨_, _, _, rfl⟩ := planned
  exact indexed_blockers _ (by simp)

theorem project_runs (configured : ConfiguredAt gauge machine) (indexed : Indexed machine plan) :
    project (.of gauge plan) machine =
      some (.ok ((List.range machine.needleCount).map (plan.projected machine)).toArray
        machine) := by
  have before : (List.range machine.needleCount).mapM machine.presenceAt =
      .ok ((List.range machine.needleCount).map machine.presence) :=
    mapM_of_pure fun position member =>
      Machine.presenceAt_ok configured.toShaped (List.mem_range.mp member)
  have member : ∀ needle, needle ∈ plan.ordered machine ↔ needle ∈ plan.moves :=
    fun _ => mem_ordered_iff configured
  have apart : Apart (plan.ordered machine) :=
    ⟨fun needle moved => indexed.apart.ordinary needle ((member needle).mp moved),
      fun first inFirst second inSecond =>
        indexed.apart.single first ((member first).mp inFirst) second ((member second).mp inSecond)⟩
  have inRange : ∀ needle ∈ plan.ordered machine, needle.position <
      ((List.range machine.needleCount).map machine.presence).toArray.size := by
    intro needle moved
    simpa using indexed.inRange needle ((member needle).mp moved)
  have projected : ∀ position, crossedPresence (plan.ordered machine) position
      (machine.presence position) = plan.projected machine position := by
    intro position
    have contained : ∀ needle, (plan.ordered machine).contains needle =
        plan.moves.contains needle := by
      intro needle
      rw [Bool.eq_iff_iff, List.contains_iff_mem, List.contains_iff_mem, member]
    rw [crossedPresence, contained, contained]
    rfl
  obtain ⟨after, ran, found⟩ := foldlM_crossing apart inRange
  have same : after = ((List.range machine.needleCount).map (plan.projected machine)).toArray := by
    apply Array.ext_getElem?
    intro position
    rw [found]
    by_cases onBed : position < machine.needleCount
    · simp [onBed, projected]
    · simp [onBed]
  have asked : ask (fun current => (List.range current.needleCount).mapM current.presenceAt)
      machine = .ok ((List.range machine.needleCount).map machine.presence) machine :=
    Machine.ask_ok before
  simp only [project, Bind.bind, lift, asked, Gathered.moves_of configured, site, ran, same,
    Option.map_some]

theorem marks_found (gauge : Nat) (indexed : Indexed machine plan) :
    ∃ marked, marks (.of gauge plan) machine.needleCount = some marked ∧
      ∀ position < machine.needleCount,
        marked[position]? = some (plan.sameLayer.contains position) := by
  obtain ⟨marked, ran, found⟩ := @foldlM_write plan.sameLayer
    (Array.replicate machine.needleCount false) fun position member => by
      rw [Array.size_replicate]
      exact indexed.sameLayer position member
  refine ⟨marked, ran, fun position onBed => ?_⟩
  rw [found]
  simp [onBed]

/-- The positions that are not chosen are passed over. -/
theorem mapM_chosen {check : Nat → Except Fault (Option Needle)} {chosen : Nat → Bool}
    (positions : List Nat) :
    (do return (← positions.mapM fun position =>
      if chosen position then check position else .ok none).filterMap id) =
      (do return (← (positions.filter chosen).mapM check).filterMap id) := by
  induction positions with
  | nil => rfl
  | cons position rest ih =>
      rw [List.mapM_cons, List.filter_cons]
      generalize rest.mapM (fun position => if chosen position then check position else .ok none) =
        passing at ih ⊢
      by_cases picked : chosen position
      · simp only [picked, if_true, List.mapM_cons]
        generalize (rest.filter chosen).mapM check = picking at ih ⊢
        cases check position with
        | error fault => rfl
        | ok start =>
            cases passing <;> cases picking <;>
              simp_all [bind, Except.bind, pure, Except.pure, List.filterMap_cons]
      · simp only [picked, Bool.false_eq_true, if_false]
        rw [← ih]
        cases passing <;> rfl

theorem agrees_planReturns (configured : ConfiguredAt gauge machine) {selected : Nat → Option Bool}
    {chosen : Nat → Bool} (same : ∀ position < machine.needleCount,
      selected position = some (chosen position)) :
    Agrees (ConfiguredAt gauge)
      (planReturns ((List.range machine.needleCount).map (plan.projected machine)).toArray selected)
      (ask (·.returnPlan plan chosen)) machine := by
  rw [planReturns, zipIdx_map_range, List.mapM_map]
  refine (agrees_mapM_ask (fun position member => ?_) configured).ask_then
    (mapM_chosen (List.range machine.needleCount)).symm fun _ _ => ⟨rfl, configured⟩
  have onBed := List.mem_range.mp member
  refine agrees_site_bind (same position onBed) ?_
  cases chosen position with
  | false => exact ⟨rfl, configured⟩
  | true =>
      refine agrees_get_bind (agrees_site_bind (configured.record_inRange onBed) ?_)
      exact agrees_ask _ configured

theorem agrees_returnLoops (configured : ConfiguredAt gauge machine) (start : Needle) :
    Agrees (ConfiguredAt gauge) (returnLoops start) (Machine.returnLoops start) machine :=
  (agrees_ask (·.loopsAt start) configured).ask_bind fun _ _ =>
    (agrees_xfer configured start start.opposite).bind fun _ _ _ kept => agrees_pure kept _

/-- A reset by a plan and the returns that are planned for chosen positions. -/
theorem agrees_resetBy (configured : ConfiguredAt gauge machine) {selected : Nat → Option Bool}
    {chosen : Nat → Bool} (same : ∀ position < machine.needleCount,
      selected position = some (chosen position)) (active : String) :
    Agrees (ConfiguredAt gauge)
      (planReturns ((List.range machine.needleCount).map (plan.projected machine)).toArray
        selected >>= (resetBy (.of gauge plan) · active))
      (Machine.resetBy plan active chosen) machine := by
  refine (agrees_planReturns configured same).ask_bind fun returns _ => ?_
  rw [resetBy, Gathered.moves_of configured]
  have checks := agrees_ask (·.checkCrossings (plan.ordered machine ++ returns)) configured
  have movers : ∀ needle, needle ∈ plan.ordered machine ++ returns ↔
      needle ∈ plan.moves ++ returns := by
    intro needle
    rw [List.mem_append, List.mem_append, mem_ordered_iff configured]
  refine (checks.ask_congr rfl).ask_bind fun _ _ => ?_
  refine (agrees_straightenFor configured movers).bind fun _ _ _ straight => ?_
  refine (agrees_carryOut straight active).bind fun _ _ _ carried => ?_
  exact (agrees_mapM (fun start _ _ held => agrees_returnLoops held start) carried).bind
    fun _ _ _ last => agrees_pure last _

theorem agrees_reset (configured : ConfiguredAt gauge machine) (sheet : Nat) :
    Agrees (ConfiguredAt gauge) (reset sheet) (Machine.reset sheet) machine := by
  refine agrees_get ((agrees_gather configured sheet).ask_convert fun plan planned => ?_)
  have indexed := peelPlan_indexed planned
  obtain ⟨marked, marking, found⟩ := marks_found gauge indexed
  refine agrees_runs_bind (project_runs configured indexed) (agrees_get_bind ?_)
  refine agrees_site_bind marking (agrees_resetBy configured ?_ (Text.decimal sheet))
  intro position onBed
  rw [remainder_of_pos configured.positive, found position onBed]
  rfl

theorem agrees_resetAll (configured : ConfiguredAt gauge machine) (sheets : List Nat) :
    Agrees (ConfiguredAt gauge) (resetAll sheets) (Machine.resetAll sheets) machine := by
  refine agrees_get ((agrees_gatherAll configured sheets).ask_convert fun plan planned => ?_)
  have indexed := peelPlanAll_indexed planned
  refine agrees_runs_bind (project_runs configured indexed) (agrees_get_bind ?_)
  refine agrees_resetBy configured ?_ (Text.bracketed sheets)
  intro position _
  rw [remainder_of_pos configured.positive]
  rfl

end Returning

end Strict

end VBed
