import VBed.Machine.NeedleSet
import VBed.Proofs.Checks
import VBed.Proofs.Configuration
import VBed.Proofs.Strict

/-!
The strict operations on gauge, sheet and layers, and the strict questions about positions. On a
configured machine each agrees with the one that is not strict.
-/

namespace VBed.Strict

open Machine (Configured ask)

def checkEvenGauge (gauge : Nat) : Strict Machine Unit := do
  lift (ask fun _ => checkGauge gauge)
  let machine ← lift get
  if (← site (remainder machine.needleCount gauge)) ≠ 0 then
    lift (throw (.unevenGauge gauge machine.needleCount))

def setGauge (gauge : Nat) : Strict Machine Unit := do
  checkEvenGauge gauge
  let machine ← lift get
  if gauge ≠ machine.gauge then
    let layers ← site ((List.range machine.layers.size).mapM (remainder · gauge))
    lift (set { machine with
      gauge := gauge
      layers := layers.toArray
      sheet := if gauge ≤ machine.sheet then 0 else machine.sheet })

def sheetNeedleCount (gauge : Option Nat) : Strict Machine Nat := do
  let gauge := gauge.getD (← lift get).gauge
  checkEvenGauge gauge
  site (quotient (← lift get).needleCount gauge)

def sheetOf (position : Nat) : Strict Machine Nat := do
  site (remainder position (← lift get).gauge)

def layerAt (position : Nat) : Strict Machine Nat := do
  lift (ask (·.checkPosition position))
  site (← lift get).layers[position]?

def recordAt (position : Nat) : Strict Machine Presence := do
  lift (ask (·.checkPosition position))
  site (← lift get).record[position]?

def setLayer (position layer : Nat) : Strict Machine Unit := do
  lift (ask (·.checkLayer position layer))
  let machine ← lift get
  let layers ← site (write machine.layers position layer)
  lift (set { machine with layers := layers })

def shiftLayer (position shift : Nat) : Strict Machine Unit := do
  let layer ← layerAt position
  if shift ≠ 0 then
    let shifted ← site (sum layer shift)
    setLayer position (← site (remainder shifted (← lift get).gauge))

def pushLayerBackward (position : Nat) (layers : Int) : Strict Machine Unit := do
  shiftLayer position (← site (euclidean layers (Text.signedWord (← lift get).gauge)))

def pushLayerForward (position : Nat) (layers : Int) : Strict Machine Unit := do
  let gauge := (← lift get).gauge
  let back ← site (euclidean layers (Text.signedWord gauge))
  let ahead ← site (difference gauge back)
  shiftLayer position (← site (remainder ahead gauge))

def layerToBack (position : Nat) : Strict Machine Unit := do
  setLayer position (← site (difference (← lift get).gauge 1))

def sheetPositions (sheet gauge : Nat) : Strict Machine (List Nat) := do
  lift (ask fun _ => checkSheet sheet gauge)
  let count ← sheetNeedleCount (some gauge)
  site ((List.range count).mapM fun position => do sum sheet (← product gauge position))

def positionsIn : Scope → Strict Machine (List Nat)
  | .all => do return List.range (← lift get).needleCount
  | .current => do sheetPositions (← lift get).sheet (← lift get).gauge
  | .sheet sheet gauge => sheetPositions sheet gauge

def members (machine : Machine) (set : NeedleSet) (needles : List Needle) :
    Except Fault (List Needle) := do
  let marked ← needles.mapM fun needle => do
    return (!set.loopsOnly || (← machine.hasLoops needle), needle)
  return (marked.filter (·.1)).map (·.2)

def needleSet (set : NeedleSet) (scope : Scope) : Strict Machine (List Needle) := do
  let positions ← positionsIn scope
  let needles := set.sides.flatMap fun side => positions.map (⟨side, ·, set.slider⟩)
  lift (ask (members · set needles))

def ofNeedle (needle : Needle) (gauge : Nat) : Option (Except Fault SheetNeedle) :=
  match checkGauge gauge with
  | .error fault => some (.error fault)
  | .ok () => do
      let sheetPosition ← quotient needle.position gauge
      let sheet ← remainder needle.position gauge
      return .ok ⟨needle.side, sheetPosition, sheet, gauge, needle.slider⟩

theorem ofNeedle_eq (needle : Needle) (gauge : Nat) :
    ofNeedle needle gauge = some (SheetNeedle.ofNeedle needle gauge) := by
  rw [ofNeedle, SheetNeedle.ofNeedle]
  cases checked : checkGauge gauge with
  | error fault => rfl
  | ok passed =>
      have positive : 0 < gauge := (Machine.checkGauge_eq_ok.mp checked).1
      simp only [quotient_of_pos positive, remainder_of_pos positive]
      rfl

variable {machine : Machine}

theorem agrees_checkEvenGauge {invariant : Machine → Prop} (holds : invariant machine)
    (gauge : Nat) :
    Agrees invariant (checkEvenGauge gauge) (ask (·.checkEvenGauge gauge)) machine := by
  refine (agrees_ask (fun _ => checkGauge gauge) holds).ask_then rfl fun _ checked => ?_
  have positive : 0 < gauge := (Machine.checkGauge_eq_ok.mp checked).1
  refine agrees_get_bind (agrees_site_bind (remainder_of_pos positive machine.needleCount) ?_)
  by_cases even : machine.needleCount % gauge = 0
  · simp only [even, ne_eq, not_true_eq_false, if_false]
    exact ⟨rfl, holds⟩
  · simp only [ne_eq, even, not_false_eq_true, if_true]
    exact ⟨rfl, holds⟩

/-- The layers of a new gauge, found one by one. -/
theorem mapM_remainder {gauge : Nat} (positive : 0 < gauge) (layers : Array Nat) :
    ((List.range layers.size).mapM (remainder · gauge)).map List.toArray =
      some (layers.mapIdx fun position _ => position % gauge) := by
  have found : (List.range layers.size).mapM (remainder · gauge) =
      some ((List.range layers.size).map (· % gauge)) :=
    mapM_of_pure fun position _ => remainder_of_pos positive position
  rw [found, Option.map_some]
  congr 1
  apply Array.ext <;> simp

theorem agrees_setGauge (configured : machine.Configured) (gauge : Nat) :
    Agrees Configured (setGauge gauge) (Machine.setGauge gauge) machine := by
  refine (agrees_checkEvenGauge configured gauge).ask_bind fun _ checked => agrees_get_bind ?_
  have regauged : (machine.regauged gauge).Configured := configured.regauged checked
  obtain ⟨positive, _⟩ := Machine.checkEvenGauge_eq_ok.mp checked
  change Agrees Configured _ (modify (·.regauged gauge)) machine
  refine ⟨?_, regauged⟩
  change _ = some (EStateM.Result.ok () (machine.regauged gauge))
  by_cases same : gauge = machine.gauge
  · simp only [ne_eq, same, not_true_eq_false, if_false, Machine.regauged, if_true]
    rfl
  · obtain ⟨layers, found, seeded⟩ :=
      Option.map_eq_some_iff.mp (mapM_remainder positive machine.layers)
    have sheet : (if gauge ≤ machine.sheet then 0 else machine.sheet) =
        if machine.sheet < gauge then machine.sheet else 0 := by
      split <;> split <;> omega
    simp only [ne_eq, same, not_false_eq_true, if_true, if_false, Machine.regauged, found,
      ← seeded, sheet]
    rfl

theorem agrees_sheetNeedleCount {invariant : Machine → Prop} (holds : invariant machine)
    (gauge : Option Nat) :
    Agrees invariant (sheetNeedleCount gauge) (ask (·.sheetNeedleCount gauge)) machine := by
  refine agrees_get_bind ?_
  refine (agrees_checkEvenGauge holds (gauge.getD machine.gauge)).ask_then rfl fun _ checked => ?_
  have positive := (Machine.checkEvenGauge_eq_ok.mp checked).1
  exact agrees_get_bind (agrees_site_ask (quotient_of_pos positive machine.needleCount) rfl holds)

theorem agrees_sheetOf (configured : machine.Configured) (position : Nat) :
    Agrees Configured (sheetOf position) (ask fun current => Except.ok (current.sheetOf position))
      machine :=
  agrees_get_bind
    (agrees_site_ask (remainder_of_pos configured.positive position) rfl configured)

theorem agrees_layerAt (configured : machine.Configured) (position : Nat) :
    Agrees Configured (layerAt position) (ask (·.layerAt position)) machine := by
  refine (agrees_ask (·.checkPosition position) configured).ask_then rfl fun _ checked => ?_
  have inRange := Machine.checkPosition_eq_ok.mp checked
  exact agrees_get_bind (agrees_site_ask (configured.layers_inRange inRange) rfl configured)

theorem agrees_recordAt (configured : machine.Configured) (position : Nat) :
    Agrees Configured (recordAt position) (ask (·.recordAt position)) machine := by
  refine (agrees_ask (·.checkPosition position) configured).ask_then rfl fun _ checked => ?_
  have inRange := Machine.checkPosition_eq_ok.mp checked
  exact agrees_get_bind (agrees_site_ask (configured.record_inRange inRange) rfl configured)

theorem agrees_setSheet (configured : machine.Configured) (sheet : Nat) :
    Agrees Configured (lift (Machine.setSheet sheet)) (Machine.setSheet sheet) machine := by
  refine agrees_lift ?_
  cases checked : checkSheet sheet machine.gauge with
  | error fault =>
      rw [Machine.setSheet, run_bind_error (Machine.ask_error checked)]
      exact configured
  | ok passed =>
      rw [Machine.setSheet, run_bind_ok (Machine.ask_ok checked)]
      exact configured.withSheet (Machine.checkSheet_eq_ok.mp checked).2.2

theorem agrees_setLayer (configured : machine.Configured) (position layer : Nat) :
    Agrees Configured (setLayer position layer) (Machine.setLayer position layer) machine := by
  refine (agrees_ask (·.checkLayer position layer) configured).ask_bind fun _ checked => ?_
  simp only [Machine.checkLayer, then_eq_ok, Machine.checkPosition_eq_ok, refusal_eq_ok] at checked
  obtain ⟨inRange, within, _⟩ := checked
  rw [← configured.layers] at inRange
  refine agrees_get_bind (agrees_site_bind (write_of_lt inRange layer) ⟨rfl, ?_⟩)
  exact configured.withLayer (Nat.lt_of_not_le within)

theorem agrees_shiftLayer (configured : machine.Configured) (position : Nat) {shift : Nat}
    (fewer : shift < machine.gauge) :
    Agrees Configured (shiftLayer position shift) (Machine.shiftLayer position shift) machine := by
  refine (agrees_layerAt configured position).ask_bind fun layer found => ?_
  have small : layer < machine.gauge := configured.layerAt_lt found
  by_cases still : shift = 0
  · simp only [still, ne_eq, not_true_eq_false, if_false]
    exact agrees_pure configured ()
  · simp only [ne_eq, still, not_false_eq_true, if_true]
    have word : layer + shift < Text.wordCount := by
      have room := configured.gauge_add_gauge
      omega
    refine agrees_site_bind (sum_of_lt word) (agrees_get_bind (agrees_get ?_))
    refine agrees_site_bind (remainder_of_pos configured.positive _) ?_
    exact agrees_setLayer configured position _

theorem euclidean_gauge (configured : machine.Configured) (layers : Int) :
    euclidean layers (Text.signedWord machine.gauge) = some (layers % machine.gauge).toNat := by
  have positive := configured.positive
  rw [configured.signedWord_gauge, euclidean_of_pos (by omega)]

theorem agrees_pushLayerBackward (configured : machine.Configured) (position : Nat) (layers : Int) :
    Agrees Configured (pushLayerBackward position layers)
      (Machine.pushLayerBackward position layers) machine := by
  refine agrees_get (agrees_get_bind (agrees_site_bind (euclidean_gauge configured layers) ?_))
  exact agrees_shiftLayer configured position (configured.remainder_lt layers)

theorem agrees_pushLayerForward (configured : machine.Configured) (position : Nat) (layers : Int) :
    Agrees Configured (pushLayerForward position layers)
      (Machine.pushLayerForward position layers) machine := by
  have back := configured.remainder_lt layers
  refine agrees_get (agrees_get_bind (agrees_site_bind (euclidean_gauge configured layers) ?_))
  refine agrees_site_bind (difference_of_le (Nat.le_of_lt back)) ?_
  refine agrees_site_bind (remainder_of_pos configured.positive _) ?_
  exact agrees_shiftLayer configured position (Nat.mod_lt _ configured.positive)

theorem agrees_layerToBack (configured : machine.Configured) (position : Nat) :
    Agrees Configured (layerToBack position) (Machine.layerToBack position) machine :=
  agrees_get (agrees_get_bind (agrees_site_bind (difference_of_le configured.positive)
    (agrees_setLayer configured position _)))

theorem sheetPosition_lt {sheet gauge count index : Nat} (exists_ : sheet < gauge)
    (divides : gauge ∣ count) (inRange : index < count / gauge) :
    sheet + gauge * index < count := by
  have last : gauge * (index + 1) ≤ gauge * (count / gauge) := Nat.mul_le_mul_left gauge inRange
  rw [Nat.mul_div_cancel' divides, Nat.mul_succ] at last
  omega

theorem sheetNeedleCount_eq_ok {gauge count : Nat} :
    machine.sheetNeedleCount (some gauge) = .ok count ↔
      (1 ≤ gauge ∧ gauge ≤ maxGauge ∧ gauge ∣ machine.needleCount) ∧
        machine.needleCount / gauge = count := by
  simp only [Machine.sheetNeedleCount, Option.getD_some, then_eq_ok, pure_eq_ok,
    Machine.checkEvenGauge_eq_ok]

theorem sheetPositions_eq_ok {sheet gauge : Nat} {positions : List Nat} :
    machine.sheetPositions sheet gauge = .ok positions ↔
      (1 ≤ gauge ∧ gauge ≤ maxGauge ∧ sheet < gauge ∧ gauge ∣ machine.needleCount) ∧
        (List.range (machine.needleCount / gauge)).map (sheet + gauge * ·) = positions := by
  rw [Machine.sheetPositions, then_eq_ok, Machine.checkSheet_eq_ok]
  simp only [bind_eq_ok, pure_eq_ok, sheetNeedleCount_eq_ok]
  constructor
  · rintro ⟨⟨positive, bounded, exists_⟩, _, ⟨⟨_, _, divides⟩, rfl⟩, same⟩
    exact ⟨⟨positive, bounded, exists_, divides⟩, same⟩
  · rintro ⟨⟨positive, bounded, exists_, divides⟩, same⟩
    exact ⟨⟨positive, bounded, exists_⟩, _, ⟨⟨positive, bounded, divides⟩, rfl⟩, same⟩

theorem agrees_sheetPositions (configured : machine.Configured) (sheet gauge : Nat) :
    Agrees Configured (sheetPositions sheet gauge) (ask (·.sheetPositions sheet gauge))
      machine := by
  refine (agrees_ask (fun _ => checkSheet sheet gauge) configured).ask_then rfl fun _ exists_ => ?_
  refine (agrees_sheetNeedleCount configured (some gauge)).ask_then rfl fun count counted => ?_
  have within := (Machine.checkSheet_eq_ok.mp exists_).2.2
  obtain ⟨⟨_, _, divides⟩, rfl⟩ := sheetNeedleCount_eq_ok.mp counted
  refine agrees_site_ask (mapM_of_pure fun index member => ?_) rfl configured
  have inRange := sheetPosition_lt within divides (List.mem_range.mp member)
  have word : sheet + gauge * index < Text.wordCount := Nat.lt_trans inRange configured.word
  rw [product_of_lt (Nat.lt_of_le_of_lt (Nat.le_add_left _ sheet) word)]
  exact sum_of_lt word

theorem agrees_positionsIn (configured : machine.Configured) (scope : Scope) :
    Agrees Configured (positionsIn scope) (ask (·.positionsIn scope)) machine := by
  cases scope with
  | all => exact ⟨rfl, configured⟩
  | current =>
      have agrees := agrees_sheetPositions configured machine.sheet machine.gauge
      exact ⟨agrees.runs, agrees.keeps⟩
  | sheet sheet gauge => exact agrees_sheetPositions configured sheet gauge

theorem positionsIn_inRange {scope : Scope} {positions : List Nat}
    (found : machine.positionsIn scope = .ok positions) :
    ∀ position ∈ positions, position < machine.needleCount := by
  have ofSheet : ∀ sheet gauge, machine.sheetPositions sheet gauge = .ok positions →
      ∀ position ∈ positions, position < machine.needleCount := by
    intro sheet gauge found position member
    obtain ⟨⟨_, _, exists_, divides⟩, rfl⟩ := sheetPositions_eq_ok.mp found
    obtain ⟨index, inRange, rfl⟩ := List.mem_map.mp member
    exact sheetPosition_lt exists_ divides (List.mem_range.mp inRange)
  cases scope with
  | all =>
      cases found
      exact fun position member => List.mem_range.mp member
  | current => exact ofSheet _ _ found
  | sheet sheet gauge => exact ofSheet _ _ found

theorem members_inRange (shaped : machine.Shaped) (set : NeedleSet) {needles : List Needle}
    (inRange : ∀ needle ∈ needles, needle.position < machine.needleCount) :
    members machine set needles =
      .ok (needles.filter fun needle => !set.loopsOnly || machine.holds needle) := by
  have marked : needles.mapM (fun needle => do
      return (!set.loopsOnly || (← machine.hasLoops needle), needle)) =
        (.ok (needles.map fun needle => (!set.loopsOnly || machine.holds needle, needle)) :
          Except Fault _) := by
    refine mapM_of_pure fun needle member => ?_
    have held := Machine.at?_of_inRange shaped (inRange needle member)
    simp only [Machine.hasLoops, Bed.hasLoops, Bed.loopsAt_eq_ok.mpr held, Machine.holds, held]
    rfl
  rw [members, marked]
  simp [bind, Except.bind, List.filter_map, Function.comp_def]

theorem agrees_members (configured : machine.Configured) (set : NeedleSet) {needles : List Needle}
    (inRange : ∀ needle ∈ needles, needle.position < machine.needleCount) :
    Agrees Configured (lift (ask (members · set needles)))
      (ask fun _ => .ok (needles.filter fun needle => !set.loopsOnly || machine.holds needle))
      machine := by
  have found := members_inRange configured.toShaped set inRange
  refine ⟨?_, configured⟩
  change some (ask _ machine) = _
  rw [Machine.ask_ok found]
  rfl

theorem agrees_needleSet (configured : machine.Configured) (set : NeedleSet) (scope : Scope) :
    Agrees Configured (needleSet set scope) (ask (·.needleSet set scope)) machine := by
  refine (agrees_positionsIn configured scope).ask_then rfl fun positions found => ?_
  have inRange := positionsIn_inRange found
  refine agrees_members configured set fun needle member => ?_
  obtain ⟨side, _, onSide⟩ := List.mem_flatMap.mp member
  obtain ⟨position, here, rfl⟩ := List.mem_map.mp onSide
  exact inRange position here

/-- The needle sets of the sheet that is worked are always there. -/
theorem needleSet_current (configured : machine.Configured) (set : NeedleSet) :
    ∃ needles, machine.needleSet set .current = .ok needles := by
  have found : machine.positionsIn .current = .ok _ := sheetPositions_eq_ok.mpr
    ⟨⟨configured.positive, configured.bounded, configured.sheet, configured.divides⟩, rfl⟩
  rw [Machine.needleSet, found]
  exact ⟨_, rfl⟩

end VBed.Strict
