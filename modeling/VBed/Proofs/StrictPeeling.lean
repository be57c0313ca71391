import Mathlib.Data.List.Basic
import VBed.Proofs.Record
import VBed.Proofs.StrictWork

/-!
Strict peeling. The moves of a plan are gathered in one pass over the positions, each under the
sheet it starts on, with the layers looked up by position.
-/

namespace VBed

namespace Machine.PeelPlan

def movesAt (plan : PeelPlan) (gauge sheet : Nat) : List Needle :=
  plan.moves.filter fun needle => needle.position % gauge == sheet

end Machine.PeelPlan

namespace Strict

open Machine (ConfiguredAt PeelPlan ask)

/-- A plan as it is gathered: its moves by the sheet they start on, and the positions in the layer
of the sheet. -/
structure Gathered where
  bySheet : Array (List Needle)
  sameLayer : List Nat

namespace Gathered

def empty (gauge : Nat) : Gathered :=
  ⟨Array.replicate gauge [], []⟩

def moves (gathered : Gathered) : List Needle :=
  gathered.bySheet.toList.flatten

def push (gathered : Gathered) (sheet : Nat) : Option Needle → Option Gathered
  | none => some gathered
  | some needle => do
      let bySheet ← change gathered.bySheet sheet (· ++ [needle])
      return { gathered with bySheet := bySheet }

def add (gathered : Gathered) (gauge : Nat) (moves : List Needle) (sameLayer : List Nat) :
    Gathered where
  bySheet := gathered.bySheet.mapIdx fun sheet needles =>
    needles ++ moves.filter fun needle => needle.position % gauge == sheet
  sameLayer := gathered.sameLayer ++ sameLayer

def of (gauge : Nat) (plan : PeelPlan) : Gathered where
  bySheet := ((List.range gauge).map (plan.movesAt gauge)).toArray
  sameLayer := plan.sameLayer

end Gathered

def groupStart (position gauge : Nat) : Option Nat := do
  product (← quotient position gauge) gauge

def gatherAt (active : Nat) (gathered : Gathered) (position : Nat) : Strict Machine Gathered := do
  let presence ← lift (ask (·.presenceAt position))
  let machine ← lift get
  let sheet ← site (remainder position machine.gauge)
  if presence.any && sheet != active then
    let layer ← site machine.layers[position]?
    let start ← site (groupStart position machine.gauge)
    let activeLayer ← site machine.layers[← site (sum start active)]?
    let pushed ← site (gathered.push sheet (machine.blocker? activeLayer position))
    let sameLayer := if layer == activeLayer then [position] else []
    return { pushed with sameLayer := gathered.sameLayer ++ sameLayer }
  else return gathered

def gather (active : Nat) : Strict Machine Gathered := do
  lift (ask fun machine => checkSheet active machine.gauge)
  let machine ← lift get
  (List.range machine.needleCount).foldlM (gatherAt active) (.empty machine.gauge)

def gatherAllAt (active : List Nat) (gathered : Gathered) (position : Nat) :
    Strict Machine Gathered := do
  let presence ← lift (ask (·.presenceAt position))
  let machine ← lift get
  let sheet ← site (remainder position machine.gauge)
  if presence.any && !active.contains sheet then
    let start ← site (groupStart position machine.gauge)
    let layers ← site (active.mapM fun other => do machine.layers[← sum start other]?)
    let activeLayer := layers.head?.getD 0
    if layers.any (· ≠ activeLayer) then
      lift (throw (.inconsistentSheetLayering active position))
    else
      let layer ← site machine.layers[position]?
      if layer = activeLayer then lift (throw (.unseparableSheets sheet active position))
      else site (gathered.push sheet (machine.blocker? activeLayer position))
  else return gathered

def gatherAll (active : List Nat) : Strict Machine Gathered := do
  lift (ask fun machine => do
    if active.isEmpty then throw .noActiveSheets
    active.forM (checkSheet · machine.gauge))
  let machine ← lift get
  (List.range machine.needleCount).foldlM (gatherAllAt active) (.empty machine.gauge)

def moveAcross (needle : Needle) : Strict Machine Line := do
  let _ ← shift needle needle.opposite
  return .plain (.xfer needle needle.opposite)

def carryOut (gathered : Gathered) (active : String) : Strict Machine (List Line) := do
  let lines ← gathered.bySheet.toList.zipIdx.mapM fun (needles, sheet) => do
    let lines ← needles.mapM moveAcross
    return .comment (" Peel sheet " ++ Text.decimal sheet ++ " relative to " ++ active) :: lines
  return lines.flatten

def peelBy (gathered : Gathered) (active : String) : Strict Machine (List Line) := do
  lift (ask (·.checkCrossings gathered.moves))
  return (← lift (Machine.straightenFor gathered.moves)) ++ (← carryOut gathered active)

def peel (sheet : Nat) : Strict Machine (List Line × List Nat) := do
  let gathered ← gather sheet
  return (← peelBy gathered (Text.decimal sheet), gathered.sameLayer)

def peelAll (sheets : List Nat) : Strict Machine (List Line) := do
  let gathered ← gatherAll sheets
  peelBy gathered (Text.bracketed sheets)

section Gathering

variable {machine : Machine} {gathered : Gathered} {gauge : Nat}

@[simp] theorem Gathered.size_add (moves : List Needle) (sameLayer : List Nat) :
    (gathered.add gauge moves sameLayer).bySheet.size = gathered.bySheet.size := by
  simp [add]

theorem Gathered.add_nil : gathered.add gauge [] [] = gathered := by
  obtain ⟨bySheet, sameLayer⟩ := gathered
  rw [add, mk.injEq]
  refine ⟨?_, List.append_nil _⟩
  apply Array.ext <;> simp

theorem Gathered.add_add (first second : List Needle) (near far : List Nat) :
    (gathered.add gauge first near).add gauge second far =
      gathered.add gauge (first ++ second) (near ++ far) := by
  simp only [add, mk.injEq, List.append_assoc, and_true]
  apply Array.ext <;> simp

theorem Gathered.empty_add (moves : List Needle) (sameLayer : List Nat) :
    (empty gauge).add gauge moves sameLayer = .of gauge ⟨moves, sameLayer⟩ := by
  simp only [empty, add, of, mk.injEq, List.nil_append, and_true]
  apply Array.ext <;> simp [PeelPlan.movesAt]

@[simp] theorem Gathered.size_empty (gauge : Nat) : (empty gauge).bySheet.size = gauge :=
  Array.size_replicate

theorem Gathered.push_blocker (fits : gathered.bySheet.size = machine.gauge)
    (positive : 0 < machine.gauge) (activeLayer position : Nat) :
    gathered.push (position % machine.gauge) (machine.blocker? activeLayer position) =
      some (gathered.add machine.gauge (machine.blocker? activeLayer position).toList []) := by
  cases found : machine.blocker? activeLayer position with
  | none => rw [push, Option.toList_none, add_nil]
  | some needle =>
      have here : needle.position = position := (Machine.blocker_facts found).1
      have inRange : position % machine.gauge < gathered.bySheet.size := by
        rw [fits]
        exact Nat.mod_lt _ positive
      rw [push, change_of_lt inRange, add]
      change some _ = some _
      congr 2
      · apply Array.ext
        · simp
        · intro sheet _ _
          by_cases same : position % machine.gauge = sheet <;>
            simp [Array.getElem_modify, here, same]
      · exact (List.append_nil _).symm

/-- One pass over the positions gathers what each of them adds, unless one is refused. -/
theorem agrees_foldlM_gather {invariant : Machine → Prop} (holds : invariant machine)
    {step : Gathered → Nat → Strict Machine Gathered} {check : Nat → Except Fault Unit}
    {moves : Nat → List Needle} {sameLayer : Nat → List Nat} {positions : List Nat}
    (each : ∀ position ∈ positions, ∀ gathered : Gathered, gathered.bySheet.size = gauge →
      Agrees invariant (step gathered position) (ask fun _ => do
        check position
        return gathered.add gauge (moves position) (sameLayer position)) machine)
    (fits : gathered.bySheet.size = gauge) :
    Agrees invariant (positions.foldlM step gathered) (ask fun _ => do
      positions.forM check
      return gathered.add gauge (positions.flatMap moves) (positions.flatMap sameLayer))
      machine := by
  induction positions generalizing gathered with
  | nil =>
      rw [List.flatMap_nil, List.flatMap_nil, Gathered.add_nil]
      exact ⟨rfl, holds⟩
  | cons position rest ih =>
      have splits : (do
          (position :: rest).forM check
          return gathered.add gauge ((position :: rest).flatMap moves)
            ((position :: rest).flatMap sameLayer)) =
          (do
            check position
            return gathered.add gauge (moves position) (sameLayer position)) >>= fun next => do
              rest.forM check
              return next.add gauge (rest.flatMap moves) (rest.flatMap sameLayer) := by
        rw [List.flatMap_cons, List.flatMap_cons, ← Gathered.add_add]
        change (check position >>= fun _ => rest.forM check) >>= _ = _
        cases check position <;> rfl
      rw [List.foldlM_cons]
      refine (each position (by simp) gathered fits).ask_then splits fun next added => ?_
      refine ih (fun other member => each other (by simp [member])) ?_
      simp only [then_eq_ok, pure_eq_ok] at added
      rw [← added.2, Gathered.size_add, fits]

theorem flatMap_filter {α β : Type} (condition : α → Bool) (result : α → List β)
    (elements : List α) :
    (elements.filter condition).flatMap result =
      elements.flatMap fun element => if condition element then result element else [] := by
  induction elements with
  | nil => rfl
  | cons element rest ih =>
      rw [List.flatMap_cons, ← ih, List.filter_cons]
      split
      · rw [List.flatMap_cons]
      · rfl

theorem filter_eq_flatMap {α : Type} (keep : α → Bool) (elements : List α) :
    elements.filter keep =
      elements.flatMap fun element => if keep element then [element] else [] := by
  rw [← flatMap_filter, List.flatMap_singleton']

theorem forM_filter {α : Type} (condition : α → Bool) (check : α → Except Fault Unit)
    (elements : List α) :
    (elements.filter condition).forM check =
      elements.forM fun element => if condition element then check element else .ok () := by
  induction elements with
  | nil => rfl
  | cons element rest ih =>
      rw [List.filter_cons]
      change _ = (if condition element then check element else .ok ()) >>= fun _ =>
        rest.forM fun element => if condition element then check element else .ok ()
      rw [← ih]
      split <;> rfl

def isOther (machine : Machine) (sheets : List Nat) (position : Nat) : Bool :=
  (machine.presence position).any && !sheets.contains (machine.sheetOf position)

def checkOther (machine : Machine) (sheets : List Nat) (position : Nat) : Except Fault Unit :=
  if isOther machine sheets position then machine.checkSeparable sheets position else .ok ()

variable (configured : ConfiguredAt gauge machine)
include configured

theorem groupStart_eq {position : Nat} (inRange : position < machine.needleCount) :
    groupStart position gauge = some (machine.groupStart position) := by
  have positive : 0 < gauge := by
    rw [← configured.gauge]
    exact configured.positive
  have word : position / gauge * gauge < Text.wordCount :=
    Nat.lt_of_le_of_lt (Nat.div_mul_le_self position gauge) (Nat.lt_trans inRange configured.word)
  rw [groupStart, quotient_of_pos positive, Machine.groupStart, configured.gauge]
  exact product_of_lt word

theorem sheetLayer_found {position sheet : Nat} (inRange : position < machine.needleCount)
    (exists_ : sheet < gauge) :
    (do machine.layers[← sum (machine.groupStart position) sheet]?) =
      some (machine.sheetLayer sheet position) := by
  have group := configured.group_inRange inRange (by rw [configured.gauge]; exact exists_)
  rw [sum_of_lt (Nat.lt_trans group configured.word)]
  exact configured.layers_inRange group

theorem agrees_gatherAt {active position : Nat} (exists_ : active < gauge)
    (inRange : position < machine.needleCount) (gathered : Gathered)
    (fits : gathered.bySheet.size = gauge) :
    Agrees (ConfiguredAt gauge) (gatherAt active gathered position) (ask fun _ => do
      .ok ()
      return gathered.add gauge
        (if isOther machine [active] position then
          (machine.blocker? (machine.sheetLayer active position) position).toList else [])
        (if isOther machine [active] position then
          (if machine.layer position == machine.sheetLayer active position then [position] else [])
          else [])) machine := by
  obtain rfl := configured.gauge
  have single : isOther machine [active] position =
      ((machine.presence position).any && position % machine.gauge != active) := by
    simp only [isOther, Machine.sheetOf, List.contains_cons, List.contains_nil, Bool.or_false, bne]
  refine agrees_known_bind (Machine.presenceAt_ok configured.toShaped inRange) (agrees_get_bind ?_)
  refine agrees_site_bind (remainder_of_pos configured.positive position) ?_
  rw [← single]
  by_cases other : isOther machine [active] position
  · simp only [other, if_true]
    refine agrees_site_bind (configured.layers_inRange inRange) ?_
    refine agrees_site_bind (groupStart_eq configured inRange) ?_
    have group := configured.group_inRange inRange exists_
    refine agrees_site_bind (sum_of_lt (Nat.lt_trans group configured.word)) ?_
    refine agrees_site_bind (configured.layers_inRange group) ?_
    refine agrees_site_bind (Gathered.push_blocker fits configured.positive _ position) ?_
    exact ⟨rfl, configured⟩
  · simp only [other, Bool.false_eq_true, if_false, Gathered.add_nil]
    exact ⟨rfl, configured⟩

theorem agrees_gather (active : Nat) :
    Agrees (ConfiguredAt gauge) (gather active)
      (ask fun current => Gathered.of gauge <$> current.peelPlan active) machine := by
  have split : Gathered.of gauge <$> machine.peelPlan active =
      checkSheet active machine.gauge >>= fun _ => pure (.of gauge
        { moves := (machine.otherPositions [active]).filterMap fun position =>
            machine.blocker? (machine.sheetLayer active position) position
          sameLayer := (machine.otherPositions [active]).filter fun position =>
            machine.layer position == machine.sheetLayer active position }) := by
    rw [Machine.peelPlan]
    cases checkSheet active machine.gauge <;> rfl
  refine (agrees_ask _ configured).ask_then split fun _ checked => agrees_get_bind ?_
  have exists_ : active < gauge := by
    rw [← configured.gauge]
    exact (Machine.checkSheet_eq_ok.mp checked).2.2
  rw [configured.gauge]
  have each := fun position (member : position ∈ List.range machine.needleCount) =>
    agrees_gatherAt configured exists_ (List.mem_range.mp member)
  refine (agrees_foldlM_gather configured each (Gathered.size_empty gauge)).ask_congr ?_
  -- What the pass adds under a condition is what the plan filters out of the positions.
  rw [(forM_eq_ok _).mpr fun _ _ => rfl, ← flatMap_filter, ← flatMap_filter,
    ← List.filterMap_eq_flatMap_toList, ← filter_eq_flatMap]
  exact congrArg Except.ok (Gathered.empty_add _ _)

theorem agrees_gatherAllAt {active : List Nat} (exist : ∀ sheet ∈ active, sheet < gauge)
    {position : Nat} (inRange : position < machine.needleCount) (gathered : Gathered)
    (fits : gathered.bySheet.size = gauge) :
    Agrees (ConfiguredAt gauge) (gatherAllAt active gathered position) (ask fun _ => do
      checkOther machine active position
      return gathered.add gauge
        (if isOther machine active position then
          (machine.blocker? (machine.sharedLayer active position) position).toList else [])
        []) machine := by
  obtain rfl := configured.gauge
  refine agrees_known_bind (Machine.presenceAt_ok configured.toShaped inRange) (agrees_get_bind ?_)
  refine agrees_site_bind (remainder_of_pos configured.positive position) ?_
  by_cases other : isOther machine active position
  · have chosen : ((machine.presence position).any &&
        !active.contains (position % machine.gauge)) = true := other
    have shared : (active.map (machine.sheetLayer · position)).head?.getD 0 =
        machine.sharedLayer active position := by
      rw [List.head?_map]
      rfl
    simp only [chosen, other, if_true, checkOther, Machine.checkSeparable]
    refine agrees_site_bind (groupStart_eq configured inRange) ?_
    refine agrees_site_bind (mapM_of_pure fun sheet member =>
      sheetLayer_found configured inRange (exist sheet member)) ?_
    simp only [shared, List.any_map, Function.comp_def]
    by_cases inconsistent :
        active.any (machine.sheetLayer · position ≠ machine.sharedLayer active position)
    · simp only [inconsistent, if_true]
      exact ⟨rfl, configured⟩
    · simp only [inconsistent, Bool.false_eq_true, if_false]
      refine agrees_site_bind (configured.layers_inRange inRange) ?_
      by_cases same : machine.layer position = machine.sharedLayer active position
      · simp only [same, if_true]
        exact ⟨rfl, configured⟩
      · simp only [same, if_false]
        refine agrees_site_ask
          (Gathered.push_blocker fits configured.positive _ position) rfl configured
  · have skipped : ((machine.presence position).any &&
        !active.contains (position % machine.gauge)) = false :=
      Bool.eq_false_iff.mpr other
    simp only [skipped, other, Bool.false_eq_true, if_false, checkOther, Gathered.add_nil]
    exact ⟨rfl, configured⟩

theorem agrees_gatherAll (active : List Nat) :
    Agrees (ConfiguredAt gauge) (gatherAll active)
      (ask fun current => Gathered.of gauge <$> current.peelPlanAll active) machine := by
  have split : Gathered.of gauge <$> machine.peelPlanAll active =
      (do
        if active.isEmpty then throw .noActiveSheets
        active.forM (checkSheet · machine.gauge)) >>= fun _ => do
          (machine.otherPositions active).forM (machine.checkSeparable active)
          return .of gauge
            { moves := (machine.otherPositions active).filterMap fun position =>
                machine.blocker? (machine.sharedLayer active position) position
              sameLayer := [] } := by
    rw [Machine.peelPlanAll]
    by_cases none : active.isEmpty
    · simp only [none, if_true]
      rfl
    · simp only [none, Bool.false_eq_true, if_false]
      cases active.forM (checkSheet · machine.gauge) with
      | error fault => rfl
      | ok passed =>
          cases (machine.otherPositions active).forM (machine.checkSeparable active) <;> rfl
  refine (agrees_ask _ configured).ask_then split fun _ checked => agrees_get_bind ?_
  have exist : ∀ sheet ∈ active, sheet < gauge := by
    intro sheet member
    simp only [throw_bind, refusal_eq_ok] at checked
    have exists_ := (forM_eq_ok active).mp checked.2 sheet member
    rw [← configured.gauge]
    exact (Machine.checkSheet_eq_ok.mp exists_).2.2
  have each := fun position (member : position ∈ List.range machine.needleCount) =>
    agrees_gatherAllAt configured exist (List.mem_range.mp member)
  rw [configured.gauge]
  refine (agrees_foldlM_gather configured each (Gathered.size_empty gauge)).ask_congr ?_
  have none : (List.range machine.needleCount).flatMap (fun _ => ([] : List Nat)) = [] := by simp
  rw [← flatMap_filter, ← List.filterMap_eq_flatMap_toList, none, Gathered.empty_add]
  exact congrArg (· >>= _) (forM_filter _ _ _).symm

end Gathering

section Moving

theorem zipIdx_map_range {α : Type} (count : Nat) (value : Nat → α) :
    ((List.range count).map value).zipIdx =
      (List.range count).map fun index => (value index, index) := by
  apply List.ext_getElem <;> simp

variable {machine : Machine} {plan : PeelPlan} {gauge : Nat}

theorem movesOf_eq (configured : ConfiguredAt gauge machine) :
    plan.movesOf machine = plan.movesAt gauge := by
  obtain rfl := configured.gauge
  rfl

theorem Gathered.moves_of (configured : ConfiguredAt gauge machine) :
    (of gauge plan).moves = plan.ordered machine := by
  rw [PeelPlan.ordered, movesOf_eq configured, configured.gauge]
  rfl

/-- A plan makes all its moves. -/
theorem mem_ordered_iff (configured : ConfiguredAt gauge machine) {needle : Needle} :
    needle ∈ plan.ordered machine ↔ needle ∈ plan.moves := by
  refine ⟨Machine.mem_ordered, fun member => ?_⟩
  have sheet : machine.sheetOf needle.position < machine.gauge :=
    Nat.mod_lt _ configured.positive
  exact List.mem_flatMap.mpr ⟨_, List.mem_range.mpr sheet, List.mem_filter.mpr ⟨member, by simp⟩⟩

theorem straightenFor_congr {first second : List Needle}
    (same : ∀ needle, needle ∈ first ↔ needle ∈ second) :
    Machine.straightenFor first = Machine.straightenFor second := by
  have empty : first.isEmpty = second.isEmpty := by
    rw [Bool.eq_iff_iff, List.isEmpty_iff, List.isEmpty_iff, List.eq_nil_iff_forall_not_mem,
      List.eq_nil_iff_forall_not_mem]
    simp only [same]
  rw [Machine.straightenFor, Machine.straightenFor, empty]

theorem agrees_straightenFor (configured : ConfiguredAt gauge machine) {first second : List Needle}
    (same : ∀ needle, needle ∈ first ↔ needle ∈ second) :
    Agrees (ConfiguredAt gauge) (lift (Machine.straightenFor first)) (Machine.straightenFor second)
      machine := by
  rw [straightenFor_congr same, Machine.straightenFor]
  split
  · exact agrees_pure configured []
  · refine ⟨rfl, ?_⟩
    exact ((agrees_setRacking configured .zero).bind fun _ _ _ kept => agrees_pure kept _).keeps

theorem agrees_moveAcross (configured : ConfiguredAt gauge machine) (needle : Needle) :
    Agrees (ConfiguredAt gauge) (moveAcross needle) (Machine.moveAcross needle) machine :=
  (agrees_shift configured needle needle.opposite).bind fun _ _ _ kept => agrees_pure kept _

theorem agrees_carryOut (configured : ConfiguredAt gauge machine) (active : String) :
    Agrees (ConfiguredAt gauge) (carryOut (.of gauge plan) active) (Machine.carryOut plan active)
      machine := by
  refine agrees_get ?_
  rw [configured.gauge]
  have numbered : (Gathered.of gauge plan).bySheet.toList.zipIdx =
      (List.range gauge).map fun sheet => (plan.movesAt gauge sheet, sheet) :=
    zipIdx_map_range gauge _
  rw [carryOut, numbered, List.mapM_map]
  refine (agrees_mapM (fun sheet _ current kept => ?_) configured).bind fun _ _ _ last =>
    agrees_pure last _
  refine agrees_get ?_
  rw [movesOf_eq kept]
  exact (agrees_mapM (fun needle _ _ held => agrees_moveAcross held needle) kept).bind
    fun _ _ _ last => agrees_pure last _

theorem agrees_peelBy (configured : ConfiguredAt gauge machine) (active : String) :
    Agrees (ConfiguredAt gauge) (peelBy (.of gauge plan) active) (Machine.peelBy plan active)
      machine := by
  rw [peelBy, Gathered.moves_of configured]
  have checks := agrees_ask (·.checkCrossings (plan.ordered machine)) configured
  refine (checks.ask_congr rfl).ask_bind fun _ _ => ?_
  refine (agrees_straightenFor configured fun _ => mem_ordered_iff configured).bind
    fun _ _ _ straight => ?_
  exact (agrees_carryOut straight active).bind fun _ _ _ last => agrees_pure last _

theorem agrees_peel (configured : ConfiguredAt gauge machine) (sheet : Nat) :
    Agrees (ConfiguredAt gauge) (peel sheet) (Machine.peel sheet) machine :=
  (agrees_gather configured sheet).ask_convert fun _ _ =>
    (agrees_peelBy configured (Text.decimal sheet)).bind fun _ _ _ last => agrees_pure last _

theorem agrees_peelAll (configured : ConfiguredAt gauge machine) (sheets : List Nat) :
    Agrees (ConfiguredAt gauge) (peelAll sheets) (Machine.peelAll sheets) machine :=
  (agrees_gatherAll configured sheets).ask_convert fun _ _ =>
    agrees_peelBy configured (Text.bracketed sheets)

end Moving

end Strict

end VBed
