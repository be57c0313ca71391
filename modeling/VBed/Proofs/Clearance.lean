import VBed.Proofs.Crossing

/-!
Peeling clears the way of sheets and does nothing else. At each position the loops of both needles
are gathered on the side where they are not in the way, and stay where they are when they are not in
the way at all. Peeling again finds nothing to move.
-/

namespace VBed.Machine

variable {machine next : Machine} {plan : PeelPlan} {sheets : List Nat}

def peeled (machine : Machine) (plan : PeelPlan) (movers : List Needle) : Machine :=
  (machine.straightened movers).crossed (plan.ordered machine)

structure Cleared (machine next : Machine) (sheets : List Nat) (lines : List Line) : Prop where
  stays : ∀ position, machine.sheetOf position ∈ sheets ∨ (machine.presence position).any = false ∨
      (∃ active ∈ sheets, machine.layer position = machine.sheetLayer active position) →
    next.loops (.front position) = machine.loops (.front position) ∧
      next.loops (.back position) = machine.loops (.back position)
  toFront : ∀ position, machine.sheetOf position ∉ sheets → ∀ active ∈ sheets,
    machine.layer position < machine.sheetLayer active position →
      next.loops (.front position) =
          machine.loops (.front position) ++ machine.loops (.back position) ∧
        next.loops (.back position) = []
  toBack : ∀ position, machine.sheetOf position ∉ sheets → ∀ active ∈ sheets,
    machine.sheetLayer active position < machine.layer position →
      next.loops (.back position) =
          machine.loops (.back position) ++ machine.loops (.front position) ∧
        next.loops (.front position) = []
  sliders : ∀ needle : Needle, needle.slider = true → next.loops needle = machine.loops needle
  record : next.record = machine.record
  setting : machine.SameSetting next
  straight : ∀ needle, machine.Blocks sheets needle → next.racking = .zero
  sameRacking : (∀ needle, ¬machine.Blocks sheets needle) → next.racking = machine.racking
  transfers : ∀ start target, .xfer start target ∈ Line.instructions lines ↔
    machine.Blocks sheets start ∧ target = start.opposite

theorem Reachable.mem_ordered_iff (reachable : machine.Reachable) {needle : Needle} :
    needle ∈ plan.ordered machine ↔ needle ∈ plan.moves :=
  Strict.mem_ordered_iff reachable.configured.current

theorem not_inWay_self (layer : Nat) (side : Side) : ¬InWay layer layer side := by
  cases side <;> exact Nat.lt_irrefl layer

theorem side_of_inWay {activeLayer layer : Nat} {first second : Side}
    (inWay : InWay activeLayer layer first) (alsoInWay : InWay activeLayer layer second) :
    first = second := by
  cases first <;> cases second <;> first | rfl | exact absurd inWay (Nat.lt_asymm alsoInWay)

theorem ordinary_ext {first second : Needle} (firstOrdinary : first.slider = false)
    (secondOrdinary : second.slider = false) (sides : first.side = second.side)
    (positions : first.position = second.position) : first = second := by
  obtain ⟨side, position, slider⟩ := first
  cases firstOrdinary
  cases sides
  cases positions
  cases second
  cases secondOrdinary
  rfl

theorem xfer_not_mem_straightenLines {needles : List Needle} {start target : Needle} :
    Instruction.xfer start target ∉ Line.instructions (machine.straightenLines needles) := by
  rw [straightenLines, rackLines]
  split
  · exact List.not_mem_nil
  · split
    · exact fun member => by cases List.mem_singleton.mp member
    · exact List.not_mem_nil

section Peeled

variable (reachable : machine.Reachable) (exactly : plan.Exact machine sheets)
  {movers : List Needle}
include reachable exactly

theorem loops_peeled_mem {needle : Needle} (blocks : machine.Blocks sheets needle) :
    (machine.peeled plan movers).loops needle = [] ∧
      (machine.peeled plan movers).loops needle.opposite =
        machine.loops needle.opposite ++ machine.loops needle := by
  have undisturbed := machine.straightened_undisturbed movers
  have single : Strict.Apart (plan.ordered machine) :=
    ⟨fun other member => exactly.ordinary other (mem_ordered member),
      fun first inFirst second inSecond =>
        exactly.single.single first (mem_ordered inFirst) second (mem_ordered inSecond)⟩
  have inRange : ∀ other ∈ plan.ordered machine,
      other.position < (machine.straightened movers).needleCount := by
    intro other member
    rw [undisturbed.needleCount]
    exact exactly.inRange other (mem_ordered member)
  have member := reachable.mem_ordered_iff.mpr ((exactly.moves needle).mpr blocks)
  have shaped := undisturbed.shaped reachable.sound.shaped
  have crossed := loops_crossed_mem shaped single inRange member
  rwa [undisturbed.loops, undisturbed.loops] at crossed

theorem untouched_peeled_of_noBlocks {position : Nat}
    (elsewhere : ∀ needle, machine.Blocks sheets needle → position ≠ needle.position) :
    machine.Untouched (machine.peeled plan movers) position :=
  untouched_peeled reachable.sound.shaped exactly.toFits movers fun needle member =>
    elsewhere needle ((exactly.moves needle).mp member)

theorem peeled_inRange {starts : List Needle}
    (inRange : ∀ start ∈ starts, start.position < machine.needleCount) :
    (machine.peeled plan movers).Shaped ∧
      ∀ start ∈ starts, start.position < (machine.peeled plan movers).needleCount := by
  have rearranged := reachable.sound.peeled exactly.toFits movers
  refine ⟨rearranged.sound.shaped, fun start member => ?_⟩
  rw [peeled, rearranged.needleCount]
  exact inRange start member

/-- A needle in the way of a sheet is left empty, and the opposite needle has all loops. -/
theorem loops_peeled_inWay {needle : Needle} (ordinary : needle.slider = false)
    (inactive : machine.sheetOf needle.position ∉ sheets) {active : Nat}
    (isActive : active ∈ sheets)
    (inWay : InWay (machine.sheetLayer active needle.position) (machine.layer needle.position)
      needle.side) :
    (machine.peeled plan movers).loops needle.opposite =
        machine.loops needle.opposite ++ machine.loops needle ∧
      (machine.peeled plan movers).loops needle = [] := by
  by_cases empty : machine.loops needle = []
  -- The needle blocks nothing, and the one opposite it is not in the way.
  · have untouched : machine.Untouched (machine.peeled plan movers) needle.position := by
      refine untouched_peeled_of_noBlocks reachable exactly fun other blocks here => ?_
      have alsoInWay := exactly.inWay other ((exactly.moves other).mpr blocks) active isActive
      rw [← here] at alsoInWay
      have same := ordinary_ext blocks.ordinary ordinary (side_of_inWay alsoInWay inWay) here.symm
      rw [same] at blocks
      exact blocks.held empty
    rw [untouched.loops needle rfl, untouched.loops needle.opposite rfl, empty, List.append_nil]
    exact ⟨rfl, rfl⟩
  · exact (loops_peeled_mem reachable exactly
      ⟨ordinary, empty, inactive, active, isActive, inWay⟩).symm

theorem loops_peeled_stays {position : Nat}
    (stays : machine.sheetOf position ∈ sheets ∨ (machine.presence position).any = false ∨
      ∃ active ∈ sheets, machine.layer position = machine.sheetLayer active position)
    {needle : Needle} (here : needle.position = position) :
    (machine.peeled plan movers).loops needle = machine.loops needle := by
  refine (untouched_peeled_of_noBlocks reachable exactly ?_).loops needle here
  rintro other blocks rfl
  rcases stays with ofSheet | noLoops | ⟨active, isActive, sameLayer⟩
  · exact blocks.inactive ofSheet
  · rw [any_of_held blocks.ordinary blocks.held] at noLoops
    cases noLoops
  · have inWay := exactly.inWay other ((exactly.moves other).mpr blocks) active isActive
    rw [sameLayer] at inWay
    exact not_inWay_self _ _ inWay

theorem cleared_peeled (shifted : machine.Shifted (machine.peeled plan plan.moves))
    (active : String) :
    machine.Cleared (machine.peeled plan plan.moves) sheets
      (machine.peelLines plan plan.moves active) where
  stays position stays :=
    ⟨loops_peeled_stays reachable exactly stays rfl, loops_peeled_stays reachable exactly stays rfl⟩
  toFront position inactive active isActive before :=
    loops_peeled_inWay reachable exactly (rfl : (Needle.back position).slider = false) inactive
      isActive before
  toBack position inactive active isActive behind :=
    loops_peeled_inWay reachable exactly (rfl : (Needle.front position).slider = false) inactive
      isActive behind
  sliders := shifted.sliders
  record := by rw [peeled, record_crossed, record_straightened]
  setting := shifted.setting
  straight needle blocks := by
    rw [peeled, racking_crossed, straightened_straight ((exactly.moves needle).mpr blocks)]
  sameRacking noBlocks := by
    rw [peeled, racking_crossed, exactly.moves_eq_nil noBlocks]
    rfl
  transfers start target := by
    rw [instructions_peelLines, List.mem_append, List.mem_map]
    constructor
    · rintro (racks | ⟨needle, member, same⟩)
      · exact absurd racks xfer_not_mem_straightenLines
      · obtain ⟨rfl, rfl⟩ := Instruction.xfer.inj same
        exact ⟨(exactly.moves needle).mp (mem_ordered member), rfl⟩
    · rintro ⟨blocks, rfl⟩
      exact Or.inr ⟨start, reachable.mem_ordered_iff.mpr ((exactly.moves start).mpr blocks), rfl⟩

theorem peelBy_eq_ok {active : String} {lines : List Line} :
    peelBy plan active machine = .ok lines next ↔
      (∀ needle, machine.Blocks sheets needle → machine.SlidersEmptyAt needle.position) ∧
        machine.peelLines plan plan.moves active = lines ∧
        machine.peeled plan plan.moves = next := by
  have shaped := reachable.sound.shaped
  have checks : machine.checkCrossings (plan.ordered machine) = .ok () ↔
      ∀ needle, machine.Blocks sheets needle → machine.SlidersEmptyAt needle.position := by
    rw [checkCrossings_eq_ok shaped
      (fun needle member => exactly.ordinary needle (mem_ordered member))
      fun needle member => exactly.inRange needle (mem_ordered member)]
    refine forall_congr' fun needle => ?_
    rw [reachable.mem_ordered_iff, exactly.moves]
  rw [← checks]
  rcases peelBy_run shaped exactly.toFits active with ⟨fault, refused, ran⟩ | ⟨passed, ran⟩
  · simp [refused, ran]
  · simp [passed, ran, peeled]

end Peeled

theorem peel_eq_ok {sheet : Nat} {lines : List Line} {sameLayer : List Nat} :
    peel sheet machine = .ok (lines, sameLayer) next ↔
      ∃ plan, machine.peelPlan sheet = .ok plan ∧ plan.sameLayer = sameLayer ∧
        peelBy plan (Text.decimal sheet) machine = .ok lines next := by
  rw [peel, ask_bind_eq_ok]
  refine exists_congr fun plan => and_congr_right fun _ => ?_
  rw [run_bind_eq_ok]
  constructor
  · rintro ⟨_, _, ran, same⟩
    cases same
    exact ⟨rfl, ran⟩
  · rintro ⟨rfl, ran⟩
    exact ⟨_, _, ran, rfl⟩

theorem peelAll_eq_ok {lines : List Line} :
    peelAll sheets machine = .ok lines next ↔
      ∃ plan, machine.peelPlanAll sheets = .ok plan ∧
        peelBy plan (Text.bracketed sheets) machine = .ok lines next :=
  ask_bind_eq_ok

structure SharesLayer (machine : Machine) (sheet position : Nat) : Prop where
  inRange : position < machine.needleCount
  held : (machine.presence position).any = true
  other : machine.sheetOf position ≠ sheet
  layer : machine.layer position = machine.sheetLayer sheet position

theorem mem_sameLayer_iff {sheet : Nat} (planned : machine.peelPlan sheet = .ok plan)
    {position : Nat} : position ∈ plan.sameLayer ↔ machine.SharesLayer sheet position := by
  simp only [peelPlan, then_eq_ok, pure_eq_ok] at planned
  obtain ⟨_, rfl⟩ := planned
  simp only [List.mem_filter, mem_otherPositions, List.mem_singleton, beq_iff_eq]
  constructor
  · rintro ⟨⟨inRange, held, other⟩, layer⟩
    exact ⟨inRange, held, other, layer⟩
  · rintro ⟨inRange, held, other, layer⟩
    exact ⟨⟨inRange, held, other⟩, layer⟩

theorem ascending_sameLayer {sheet : Nat} (planned : machine.peelPlan sheet = .ok plan) :
    plan.sameLayer.Pairwise (· < ·) := by
  simp only [peelPlan, then_eq_ok, pure_eq_ok] at planned
  obtain ⟨_, rfl⟩ := planned
  exact (List.pairwise_lt_range.filter _).filter _

theorem Cleared.notBlocks {lines : List Line} (cleared : machine.Cleared next sheets lines)
    (needle : Needle) : ¬next.Blocks sheets needle := by
  rintro ⟨ordinary, held, inactive, active, isActive, inWay⟩
  rw [cleared.setting.sheetOf] at inactive
  rw [cleared.setting.layer, cleared.setting.sheetLayer] at inWay
  obtain ⟨side, position, slider⟩ := needle
  cases ordinary
  cases side with
  | front => exact held (cleared.toBack position inactive active isActive inWay).2
  | back => exact held (cleared.toFront position inactive active isActive inWay).2

/-- Whether a position holds loops is on record. -/
theorem any_presence_congr (reachable : machine.Reachable) (later : next.Reachable)
    (kept : next.record = machine.record) (position : Nat) :
    (next.presence position).any = (machine.presence position).any := by
  rw [← reachable.tracked.any, ← later.tracked.any, onRecord_congr kept]

theorem otherPositions_congr (setting : machine.SameSetting next)
    (any : ∀ position, (next.presence position).any = (machine.presence position).any) :
    next.otherPositions sheets = machine.otherPositions sheets := by
  simp only [otherPositions, needleCount, setting.spec, any, setting.sheetOf]

theorem peelBy_idle (reachable : machine.Reachable) (exactly : plan.Exact machine sheets)
    (idle : ∀ needle, ¬machine.Blocks sheets needle) (active : String) :
    ∃ lines, peelBy plan active machine = .ok lines machine ∧ Line.instructions lines = [] := by
  have noMoves := exactly.moves_eq_nil idle
  have noOrder : plan.ordered machine = [] := List.eq_nil_iff_forall_not_mem.mpr
    fun needle member => by simpa [noMoves] using mem_ordered member
  refine ⟨_, (peelBy_eq_ok reachable exactly).mpr
    ⟨fun needle blocks => absurd blocks (idle needle), rfl, ?_⟩, ?_⟩
  · rw [peeled, noOrder, noMoves]
    rfl
  · rw [instructions_peelLines, noOrder, noMoves]
    rfl

theorem Cleared.separable {lines : List Line} (cleared : machine.Cleared next sheets lines)
    (any : ∀ position, (next.presence position).any = (machine.presence position).any)
    (separable : machine.Separable sheets) : next.Separable sheets := by
  have setting := cleared.setting
  have others : next.otherPositions sheets = machine.otherPositions sheets :=
    otherPositions_congr setting any
  refine ⟨separable.named, ?_, ?_, ?_⟩
  · rw [setting.gauge]
    exact separable.exist
  · simp only [others, setting.sheetLayer]
    exact separable.shared
  · simp only [others, setting.layer, setting.sheetLayer]
    exact separable.apart

theorem sameLayer_congr {after : PeelPlan} {sheet : Nat} (setting : machine.SameSetting next)
    (any : ∀ position, (next.presence position).any = (machine.presence position).any)
    (planned : machine.peelPlan sheet = .ok plan) (plannedAfter : next.peelPlan sheet = .ok after) :
    after.sameLayer = plan.sameLayer := by
  simp only [peelPlan, then_eq_ok, pure_eq_ok] at planned plannedAfter
  obtain ⟨_, rfl⟩ := planned
  obtain ⟨_, rfl⟩ := plannedAfter
  simp only [otherPositions_congr setting any, setting.layer, setting.sheetLayer]

/-- A peel that is not refused clears the way, and leads to a reachable machine. -/
theorem cleared_of_act (reachable : machine.Reachable) (exactly : plan.Exact machine sheets)
    {active : String} {lines : List Line} (peels : peelBy plan active machine = .ok lines next)
    {call : Call} (crosses : call.peelsOrResets = true) (ran : call.act machine = .ok lines next) :
    next.Reachable ∧ machine.Cleared next sheets lines := by
  have later := reachable.step call
  have shifted := shifted_after reachable.sound crosses
  rw [after_of_act ran] at later shifted
  obtain ⟨_, rfl, rfl⟩ := (peelBy_eq_ok reachable exactly).mp peels
  exact ⟨later, cleared_peeled reachable exactly shifted active⟩

/-- Peeling clears the way of one sheet or of several, tells which positions stay in the layer of
the sheet, and is refused only for sheets that cannot be peeled and for sliders that hold loops
where something is in the way. Peeling again changes nothing. -/
structure ClearsWay (machine : Machine) : Prop where
  clears : ∀ sheet lines sameLayer next, peel sheet machine = .ok (lines, sameLayer) next →
    machine.Cleared next [sheet] lines ∧ sameLayer.Pairwise (· < ·) ∧
      (∀ position, position ∈ sameLayer ↔ machine.SharesLayer sheet position) ∧
      ∃ again, peel sheet next = .ok (again, sameLayer) next ∧ Line.instructions again = []
  succeeds : ∀ sheet, (∃ result next, peel sheet machine = .ok result next) ↔
    sheet < machine.gauge ∧
      ∀ needle, machine.Blocks [sheet] needle → machine.SlidersEmptyAt needle.position
  clearsAll : ∀ sheets lines next, peelAll sheets machine = .ok lines next →
    machine.Cleared next sheets lines ∧
      ∃ again, peelAll sheets next = .ok again next ∧ Line.instructions again = []
  succeedsAll : ∀ sheets, (∃ lines next, peelAll sheets machine = .ok lines next) ↔
    machine.Separable sheets ∧
      ∀ needle, machine.Blocks sheets needle → machine.SlidersEmptyAt needle.position

theorem clearsWay_of_reachable (reachable : machine.Reachable) : machine.ClearsWay := by
  have shaped := reachable.sound.shaped
  have valid := reachable.validGauge
  refine ⟨?_, ?_, ?_, ?_⟩
  · intro sheet lines sameLayer next ran
    obtain ⟨plan, planned, rfl, peels⟩ := peel_eq_ok.mp ran
    have exactly := peelPlan_exact shaped planned
    obtain ⟨later, cleared⟩ := cleared_of_act reachable exactly peels
      (rfl : (Call.apply (.peel sheet)).peelsOrResets = true) (run_bind_ok ran)
    have any := any_presence_congr reachable later cleared.record
    have exist := (exists_peelPlan_iff valid).mp ⟨plan, planned⟩
    rw [← cleared.setting.gauge] at exist
    obtain ⟨after, plannedAfter⟩ := (exists_peelPlan_iff later.validGauge).mpr exist
    obtain ⟨again, idle, silent⟩ := peelBy_idle later
      (peelPlan_exact later.sound.shaped plannedAfter) cleared.notBlocks (Text.decimal sheet)
    exact ⟨cleared, ascending_sameLayer planned, fun _ => mem_sameLayer_iff planned, again,
      peel_eq_ok.mpr ⟨after, plannedAfter,
        sameLayer_congr cleared.setting any planned plannedAfter, idle⟩, silent⟩
  · intro sheet
    rw [← exists_peelPlan_iff valid]
    constructor
    · rintro ⟨⟨lines, sameLayer⟩, next, ran⟩
      obtain ⟨plan, planned, _, peels⟩ := peel_eq_ok.mp ran
      exact ⟨⟨plan, planned⟩, ((peelBy_eq_ok reachable (peelPlan_exact shaped planned)).mp peels).1⟩
    · rintro ⟨⟨plan, planned⟩, empty⟩
      exact ⟨_, _, peel_eq_ok.mpr ⟨plan, planned, rfl,
        (peelBy_eq_ok reachable (peelPlan_exact shaped planned)).mpr ⟨empty, rfl, rfl⟩⟩⟩
  · intro sheets lines next ran
    obtain ⟨plan, planned, peels⟩ := peelAll_eq_ok.mp ran
    have exactly := peelPlanAll_exact shaped planned
    obtain ⟨later, cleared⟩ := cleared_of_act reachable exactly peels
      (rfl : (Call.apply (.peelSheets sheets)).peelsOrResets = true) ran
    have any := any_presence_congr reachable later cleared.record
    have separable := (exists_peelPlanAll_iff valid).mp ⟨plan, planned⟩
    obtain ⟨after, plannedAfter⟩ :=
      (exists_peelPlanAll_iff later.validGauge).mpr (cleared.separable any separable)
    obtain ⟨again, idle, silent⟩ := peelBy_idle later
      (peelPlanAll_exact later.sound.shaped plannedAfter) cleared.notBlocks (Text.bracketed sheets)
    exact ⟨cleared, again, peelAll_eq_ok.mpr ⟨after, plannedAfter, idle⟩, silent⟩
  · intro sheets
    rw [← exists_peelPlanAll_iff valid]
    constructor
    · rintro ⟨lines, next, ran⟩
      obtain ⟨plan, planned, peels⟩ := peelAll_eq_ok.mp ran
      exact ⟨⟨plan, planned⟩,
        ((peelBy_eq_ok reachable (peelPlanAll_exact shaped planned)).mp peels).1⟩
    · rintro ⟨⟨plan, planned⟩, empty⟩
      exact ⟨_, _, peelAll_eq_ok.mpr ⟨plan, planned,
        (peelBy_eq_ok reachable (peelPlanAll_exact shaped planned)).mpr ⟨empty, rfl, rfl⟩⟩⟩

def crowded : Machine :=
  (initial twoNeedles).afterAll [.apply (.inhook ⟨1⟩), .apply (.tuck (.front 0) [⟨1⟩] none),
    .apply (.tuck (.front 1) [⟨1⟩] none), .apply (.tuck (.back 1) [⟨1⟩] none), .apply (.gauge 2)]

theorem clearsWay_crowded :
    (crowded.afterAll [.apply (.peel 0)]).loops (.back 1) = [⟨2⟩, ⟨1⟩] ∧
      (crowded.afterAll [.apply (.peel 0)]).loops (.front 1) = [] ∧
      (crowded.afterAll [.apply (.peelSheets [1])]).loops (.front 0) = [⟨0⟩] ∧ crowded.ClearsWay :=
  ⟨by decide +kernel, by decide +kernel, by decide +kernel,
    clearsWay_of_reachable (reachable_twoNeedles _)⟩

end VBed.Machine
