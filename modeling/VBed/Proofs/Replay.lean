import VBed.Proofs.LoopIdentity

/-!
Replaying knitout. The instructions of a run, taken as operations again, lead from the empty machine
to the same loops, graph and carriers and to a racking of the same number. A machine that replays
mirrors the other one: it need not know gauge, sheets, layers or records, since all that the other
one does to its beds, carriers and racking stands in the lines.
-/

namespace VBed

def Operation.ofInstruction? : Instruction → Option Operation
  | .knit direction needle carriers => some (.knit needle carriers (some direction))
  | .tuck direction needle carriers => some (.tuck needle carriers (some direction))
  | .split direction start target carriers => some (.split start target carriers (some direction))
  | .drop needle => some (.drop needle)
  | .xfer start target => some (.xfer start target)
  | .rack racking => some (.rack racking)
  | .bringIn [carrier] => some (.bringIn carrier)
  | .inhook [carrier] => some (.inhook carrier)
  | .releasehook [carrier] => some (.releasehook carrier)
  | .out [carrier] => some (.out carrier)
  | .outhook [carrier] => some (.outhook carrier)
  | _ => none

def Program.ofLines? (spec : Spec) (lines : List Line) : Option Program :=
  return ⟨some spec, ← (Line.instructions lines).mapM Operation.ofInstruction?⟩

namespace Machine

variable {machine again next final : Machine}

def Replayed (instructions : List Instruction) (again final : Machine) : Prop :=
  ∃ replay, instructions.mapM Operation.ofInstruction? = some replay ∧
    Program.runAll replay again = .ok (instructions.map Line.plain) final

theorem replayed_nil (again : Machine) : Replayed [] again again :=
  ⟨[], rfl, rfl⟩

theorem replayed_one {operation : Operation} {instruction : Instruction}
    (named : Operation.ofInstruction? instruction = some operation)
    (ran : operation.apply again = .ok [.plain instruction] final) :
    Replayed [instruction] again final := by
  refine ⟨[operation], by simp [named], ?_⟩
  rw [Program.runAll, run_bind_ok ran]
  rfl

theorem runAll_cons_eq_ok {operation : Operation} {rest : List Operation} {lines : List Line} :
    Program.runAll (operation :: rest) machine = .ok lines final ↔
      ∃ first middle others, operation.apply machine = .ok first middle ∧
        Program.runAll rest middle = .ok others final ∧ first ++ others = lines := by
  rw [Program.runAll, run_bind_eq_ok]
  constructor
  · rintro ⟨first, middle, applied, later⟩
    obtain ⟨others, last, restRan, same⟩ := run_bind_eq_ok.mp later
    cases same
    exact ⟨first, middle, others, applied, restRan, rfl⟩
  · rintro ⟨first, middle, others, applied, restRan, rfl⟩
    exact ⟨first, middle, applied, run_bind_ok restRan⟩

theorem runAll_append {first second : List Operation} {firstLines secondLines : List Line}
    (ran : Program.runAll first machine = .ok firstLines again)
    (continued : Program.runAll second again = .ok secondLines final) :
    Program.runAll (first ++ second) machine = .ok (firstLines ++ secondLines) final := by
  induction first generalizing machine firstLines with
  | nil =>
      cases ran
      exact continued
  | cons operation rest ih =>
      obtain ⟨lines, middle, others, applied, restRan, rfl⟩ := runAll_cons_eq_ok.mp ran
      rw [List.append_assoc]
      exact runAll_cons_eq_ok.mpr ⟨lines, middle, _, applied, ih restRan, rfl⟩

theorem Replayed.append {first second : List Instruction} (left : Replayed first machine again)
    (right : Replayed second again final) : Replayed (first ++ second) machine final := by
  obtain ⟨firstReplay, firstNamed, firstRan⟩ := left
  obtain ⟨secondReplay, secondNamed, secondRan⟩ := right
  refine ⟨firstReplay ++ secondReplay, ?_, ?_⟩
  · rw [List.mapM_append, firstNamed, secondNamed]
    rfl
  · rw [List.map_append]
    exact runAll_append firstRan secondRan

/-- What the instructions tell of is the same for both machines, the racking up to the sign of
zero. -/
structure Mirrors (machine again : Machine) : Prop where
  spec : again.spec = machine.spec
  frontBed : again.frontBed = machine.frontBed
  backBed : again.backBed = machine.backBed
  carriers : again.carriers = machine.carriers
  graph : again.graph = machine.graph
  racking : again.racking.place? = machine.racking.place?
  numeric : machine.racking.place?.isSome

theorem Mirrors.bed (mirrors : machine.Mirrors again) (side : Side) :
    again.bed side = machine.bed side := by
  cases side
  · exact mirrors.frontBed
  · exact mirrors.backBed

theorem Mirrors.loops (mirrors : machine.Mirrors again) (needle : Needle) :
    again.loops needle = machine.loops needle := by
  rw [Machine.loops, mirrors.bed]
  rfl

theorem Mirrors.equal (mirrors : machine.Mirrors again) (racking : Binary64) :
    again.racking.equal racking = machine.racking.equal racking := by
  rw [Binary64.equal, mirrors.racking]
  rfl

theorem Mirrors.eq (mirrors : machine.Mirrors again) :
    again = { machine with
      racking := again.racking, direction := again.direction, gauge := again.gauge,
      sheet := again.sheet, record := again.record, layers := again.layers } := by
  cases machine
  cases again
  obtain ⟨spec, frontBed, backBed, carriers, graph, _⟩ := mirrors
  cases spec
  cases frontBed
  cases backBed
  cases carriers
  cases graph
  rfl

theorem Mirrors.checkWork (mirrors : machine.Mirrors again) (work : Work) (needle : Needle) :
    again.checkWork work needle = machine.checkWork work needle := by
  rw [mirrors.eq]
  rfl

theorem Mirrors.checkMaking (mirrors : machine.Mirrors again) (work : Work) (needle : Needle)
    (carriers : CarrierSet) :
    again.checkMaking work needle carriers = machine.checkMaking work needle carriers := by
  rw [mirrors.eq]
  rfl

theorem Mirrors.checkRacking (mirrors : machine.Mirrors again) (racking : Binary64) :
    again.checkRacking racking = machine.checkRacking racking := by
  rw [mirrors.eq]
  rfl

theorem checkFacing_eq_ok {start target : Needle} :
    machine.checkFacing start target = .ok () ↔
      (match start.side with
        | .front => machine.faces start.position target.position
        | .back => machine.faces target.position start.position) = true := by
  rw [Machine.checkFacing]
  cases start.side with
  | front => cases facing : machine.faces start.position target.position <;> simp [facing]
  | back => cases facing : machine.faces target.position start.position <;> simp [facing]

theorem Mirrors.checkFacing (mirrors : machine.Mirrors again) {start target : Needle}
    (checked : machine.checkFacing start target = .ok ()) :
    again.checkFacing start target = .ok () := by
  have sameFaces : ∀ front back, again.faces front back = machine.faces front back :=
    fun front back => mirrors.equal (rackingBetween front back)
  rw [checkFacing_eq_ok] at checked ⊢
  rw [sameFaces, sameFaces]
  exact checked

theorem Mirrors.checkTransfer (mirrors : machine.Mirrors again) {start target : Needle}
    (checked : machine.checkTransfer start target = .ok ()) :
    again.checkTransfer start target = .ok () := by
  have checkNeedle : again.checkNeedle = machine.checkNeedle := by rw [mirrors.eq]; rfl
  have checkClear : again.checkClear = machine.checkClear := by rw [mirrors.eq]; rfl
  simp only [Machine.checkTransfer, throw_bind, then_eq_ok, refusal_eq_ok] at checked ⊢
  rw [checkNeedle, checkClear]
  obtain ⟨startInRange, targetInRange, sides, targetClear, startClear, facing⟩ := checked
  exact ⟨startInRange, targetInRange, sides, targetClear, startClear, mirrors.checkFacing facing⟩

theorem Mirrors.checkSplit (mirrors : machine.Mirrors again) {start target : Needle}
    {carriers : CarrierSet} (checked : machine.checkSplit start target carriers = .ok ()) :
    again.checkSplit start target carriers = .ok () := by
  have hasLoops : again.hasLoops = machine.hasLoops := by rw [mirrors.eq]; rfl
  simp only [Machine.checkSplit, then_eq_ok] at checked ⊢
  rw [mirrors.checkMaking, hasLoops]
  exact ⟨mirrors.checkTransfer checked.1, checked.2⟩

theorem Mirrors.put (mirrors : machine.Mirrors again) (needle : Needle) (held : List LoopId) :
    (machine.put needle held).Mirrors (again.put needle held) := by
  simp only [Machine.put, mirrors.bed]
  cases needle.side
  · exact ⟨mirrors.spec, rfl, mirrors.backBed, mirrors.carriers, mirrors.graph, mirrors.racking,
      mirrors.numeric⟩
  · exact ⟨mirrors.spec, mirrors.frontBed, rfl, mirrors.carriers, mirrors.graph, mirrors.racking,
      mirrors.numeric⟩

theorem Mirrors.recordedLeft (mirrors : machine.Mirrors again) (position : Nat) :
    (machine.recorded position).Mirrors again :=
  ⟨mirrors.spec, mirrors.frontBed, mirrors.backBed, mirrors.carriers, mirrors.graph,
    mirrors.racking, mirrors.numeric⟩

theorem Mirrors.recordedRight (mirrors : machine.Mirrors again) (position : Nat) :
    machine.Mirrors (again.recorded position) :=
  ⟨mirrors.spec, mirrors.frontBed, mirrors.backBed, mirrors.carriers, mirrors.graph,
    mirrors.racking, mirrors.numeric⟩

theorem Mirrors.recorded (mirrors : machine.Mirrors again) (position : Nat) :
    (machine.recorded position).Mirrors (again.recorded position) :=
  (mirrors.recordedLeft position).recordedRight position

theorem Mirrors.moved (mirrors : machine.Mirrors again) (start target : Needle) :
    (machine.moved start target).Mirrors (again.moved start target) := by
  rw [Machine.moved, Machine.moved, mirrors.loops, mirrors.loops]
  exact (mirrors.put start []).put target _

theorem Mirrors.transferred (mirrors : machine.Mirrors again) (start target : Needle) :
    (machine.transferred start target).Mirrors (again.transferred start target) :=
  ((mirrors.moved start target).recorded _).recorded _

theorem Mirrors.made (mirrors : machine.Mirrors again) (needle : Needle) (fed : CarrierSystem)
    (yarns : List Yarn) (kept parents : List LoopId) :
    (machine.made needle fed yarns kept parents).Mirrors
      (again.made needle fed yarns kept parents) := by
  rw [Machine.made, Machine.made, mirrors.graph, mirrors.bed]
  have placed := mirrors.put needle (kept ++ machine.graph.nextLoops yarns.length)
  exact ⟨placed.spec, placed.frontBed, placed.backBed, rfl, rfl, placed.racking, placed.numeric⟩

theorem Mirrors.unseen (mirrors : machine.Mirrors again) (same : machine.Unseen next) :
    next.Mirrors again where
  spec := by rw [mirrors.spec, same.spec]
  frontBed := by rw [mirrors.frontBed, same.frontBed]
  backBed := by rw [mirrors.backBed, same.backBed]
  carriers := by rw [mirrors.carriers, same.carriers]
  graph := by rw [mirrors.graph, same.graph]
  racking := by rw [mirrors.racking, same.racking]
  numeric := by rw [same.racking]; exact mirrors.numeric

theorem Mirrors.regauged (mirrors : machine.Mirrors again) (number : Nat) :
    (machine.regauged number).Mirrors again := by
  rw [Machine.regauged]
  split
  · exact mirrors
  · exact ⟨mirrors.spec, mirrors.frontBed, mirrors.backBed, mirrors.carriers, mirrors.graph,
      mirrors.racking, mirrors.numeric⟩

theorem numeric_of_checkRacking {racking : Binary64}
    (checked : machine.checkRacking racking = .ok ()) : racking.place?.isSome := by
  simp only [Machine.checkRacking, refusal_eq_ok, Bool.or_eq_true, not_or] at checked
  cases racking with
  | finite negative magnitude => rfl
  | infinite negative => exact absurd rfl checked.1.1
  | nan => exact absurd rfl checked.1.1

theorem place?_of_equal {left right : Binary64} (equal : left.equal right = true) :
    left.place? = right.place? := by
  rw [Binary64.equal] at equal
  split at equal
  · rename_i first second leftPlace rightPlace
    rw [leftPlace, rightPlace, beq_iff_eq.mp equal]
  · cases equal

theorem emit_done {α : Type} {work : Action α} {instruction : Instruction} {answer : α}
    (ran : work machine = .ok answer next) :
    Operation.emit work instruction machine = .ok [.plain instruction] next := by
  rw [Operation.emit, run_bind_ok ran]
  rfl

/-- The racking is told of when its number changes, and need not be when it stays. -/
theorem Mirrors.racked (mirrors : machine.Mirrors again) {racking : Binary64}
    (checked : machine.checkRacking racking = .ok ()) :
    ∃ final, Replayed (Line.instructions (machine.rackLines racking)) again final ∧
      Mirrors { machine with racking := racking } final := by
  have numeric := numeric_of_checkRacking checked
  rw [rackLines]
  cases equal : machine.racking.equal racking with
  | true =>
      refine ⟨again, replayed_nil again, mirrors.spec, mirrors.frontBed, mirrors.backBed,
        mirrors.carriers, mirrors.graph, ?_, numeric⟩
      rw [mirrors.racking]
      exact place?_of_equal equal
  | false =>
      have ran : Operation.apply (.rack racking) again =
          .ok [.plain (.rack racking)] { again with racking := racking } := by
        rw [← mirrors.checkRacking] at checked
        rw [Operation.apply, Operation.emitRack, run_bind_ok (setRacking_done checked),
          mirrors.equal, equal]
        rfl
      exact ⟨_, replayed_one rfl ran, mirrors.spec, mirrors.frontBed, mirrors.backBed,
        mirrors.carriers, mirrors.graph, rfl, numeric⟩

theorem runAll_sound (sound : machine.Sound) {operations : List Operation} {lines : List Line}
    (ran : Program.runAll operations machine = .ok lines final) : final.Sound := by
  induction operations generalizing machine lines with
  | nil =>
      cases ran
      exact sound
  | cons operation rest ih =>
      obtain ⟨first, middle, others, applied, restRan, _⟩ := runAll_cons_eq_ok.mp ran
      have effect : Effect machine (.apply operation) first middle :=
        effect_of_ok sound.shaped sound.known applied
      exact ih (effect.evolved sound).sound restRan

theorem Replayed.sound {instructions : List Instruction}
    (replayed : Replayed instructions again final) (sound : again.Sound) : final.Sound := by
  obtain ⟨_, _, ran⟩ := replayed
  exact runAll_sound sound ran

theorem Mirrors.xfer (mirrors : machine.Mirrors again) (shaped : again.Shaped)
    {start target : Needle} (checked : machine.checkTransfer start target = .ok ()) :
    Replayed [.xfer start target] again (again.transferred start target) :=
  replayed_one rfl (emit_done (xfer_done shaped (mirrors.checkTransfer checked)))

theorem Mirrors.crossed (mirrors : machine.Mirrors again) (shaped : machine.Shaped)
    (sound : again.Sound) {needles : List Needle}
    (crossable : ∀ needle ∈ needles, machine.Crossable needle) :
    ∃ final, Replayed (needles.map fun needle => .xfer needle needle.opposite) again final ∧
      (machine.crossed needles).Mirrors final := by
  induction needles generalizing machine again with
  | nil => exact ⟨again, replayed_nil again, mirrors⟩
  | cons needle rest ih =>
      have first := crossable needle (by simp)
      have here := mirrors.xfer sound.shaped (first.transfer shaped)
      -- The replay puts on record what the other machine moves off the record; no line tells.
      have same : (machine.moved needle needle.opposite).Mirrors
          (again.transferred needle needle.opposite) :=
        ((mirrors.moved needle needle.opposite).recordedRight _).recordedRight _
      obtain ⟨final, later, mirrored⟩ := ih same (shaped.moved needle needle.opposite)
        (here.sound sound)
        (fun other member => first.moved shaped (crossable other (by simp [member])))
      exact ⟨final, here.append later, mirrored⟩

theorem Mirrors.returned (mirrors : machine.Mirrors again) (shaped : machine.Shaped)
    (sound : again.Sound) {starts : List Needle}
    (crossable : ∀ start ∈ starts, machine.Crossable start) :
    ∃ final, Replayed (starts.map fun start => .xfer start start.opposite) again final ∧
      (machine.returned starts).Mirrors final := by
  induction starts generalizing machine again with
  | nil => exact ⟨again, replayed_nil again, mirrors⟩
  | cons start rest ih =>
      have first := crossable start (by simp)
      have here := mirrors.xfer sound.shaped (first.transfer shaped)
      obtain ⟨final, later, mirrored⟩ := ih (mirrors.transferred start start.opposite)
        (shaped.transferred start start.opposite) (here.sound sound)
        (fun other member => first.transferred shaped (crossable other (by simp [member])))
      exact ⟨final, here.append later, mirrored⟩

theorem Mirrors.straightened (mirrors : machine.Mirrors again) (shaped : machine.Shaped)
    (needles : List Needle) :
    ∃ final, Replayed (Line.instructions (machine.straightenLines needles)) again final ∧
      (machine.straightened needles).Mirrors final := by
  rw [straightenLines, Machine.straightened]
  split
  · exact ⟨again, replayed_nil again, mirrors⟩
  · exact mirrors.racked (checkRacking_zero shaped.valid)

theorem instructions_append (first second : List Line) :
    Line.instructions (first ++ second) = Line.instructions first ++ Line.instructions second :=
  List.filterMap_append

theorem instructions_lines (plan : PeelPlan) (machine : Machine) (active : String)
    (sheet : Nat) :
    Line.instructions (plan.lines machine active sheet) =
      (plan.movesOf machine sheet).map fun needle => .xfer needle needle.opposite := by
  rw [Line.instructions, PeelPlan.lines, List.filterMap_cons_none rfl, List.filterMap_map]
  exact congrFun List.filterMap_eq_map' _

theorem instructions_peelLines (plan : PeelPlan) (needles : List Needle) (active : String) :
    Line.instructions (machine.peelLines plan needles active) =
      Line.instructions (machine.straightenLines needles) ++
        (plan.ordered machine).map fun needle => .xfer needle needle.opposite := by
  rw [peelLines, instructions_append, PeelPlan.ordered, List.map_flatMap]
  congr 1
  rw [Line.instructions, List.filterMap_flatMap]
  exact congrArg (List.flatMap · (List.range machine.gauge))
    (funext (instructions_lines plan machine active))

theorem instructions_returnLines (starts : List Needle) :
    Line.instructions (machine.returnLines starts) =
      starts.map fun start => .xfer start start.opposite := by
  induction starts generalizing machine with
  | nil => rfl
  | cons start rest ih =>
      exact congrArg (Instruction.xfer start start.opposite :: ·) ih

theorem Mirrors.peeled (mirrors : machine.Mirrors again) (shaped : machine.Shaped)
    (sound : again.Sound) {plan : PeelPlan} {needles : List Needle} (active : String)
    (crossable : ∀ needle ∈ plan.ordered machine,
      (machine.straightened needles).Crossable needle) :
    ∃ final, Replayed (Line.instructions (machine.peelLines plan needles active)) again final ∧
      ((machine.straightened needles).crossed (plan.ordered machine)).Mirrors final := by
  obtain ⟨straight, first, mirrored⟩ := mirrors.straightened shaped needles
  obtain ⟨final, second, done⟩ := mirrored.crossed
    ((machine.straightened_undisturbed needles).shaped shaped) (first.sound sound) crossable
  rw [instructions_peelLines]
  exact ⟨final, first.append second, done⟩

theorem Mirrors.restored (mirrors : machine.Mirrors again) (shaped : machine.Shaped)
    (sound : again.Sound) {plan : PeelPlan} {returns : List Needle} (active : String)
    (crossable : ∀ needle ∈ plan.ordered machine ++ returns,
      (machine.straightened (plan.moves ++ returns)).Crossable needle) :
    ∃ final, Replayed (Line.instructions (machine.resetLines plan returns active)) again final ∧
      (machine.restored plan returns).Mirrors final := by
  have straight := (machine.straightened_undisturbed (plan.moves ++ returns)).shaped shaped
  have moving : ∀ needle ∈ plan.ordered machine,
      (machine.straightened (plan.moves ++ returns)).Crossable needle :=
    fun needle member => crossable needle (List.mem_append_left _ member)
  obtain ⟨middle, first, mirrored⟩ := mirrors.peeled shaped sound active moving
  obtain ⟨final, second, done⟩ := mirrored.returned (straight.crossed _) (first.sound sound)
    fun start member => (crossable start (List.mem_append_right _ member)).crossed straight moving
  rw [resetLines, instructions_append, instructions_returnLines]
  exact ⟨final, first.append second, done⟩

theorem Mirrors.carried (mirrors : machine.Mirrors again) {operation : Operation}
    {work : CarrierSystem → Except Fault CarrierSystem} {instruction : Instruction}
    {carriers : CarrierSystem} (moves : operation.carrierWork? = some (work, instruction))
    (ran : work machine.carriers = .ok carriers) :
    ∃ final, Replayed [instruction] again final ∧
      Mirrors { machine with carriers := carriers } final := by
  have mirrored : Mirrors { machine with carriers := carriers }
      { again with carriers := carriers } :=
    ⟨mirrors.spec, mirrors.frontBed, mirrors.backBed, rfl, mirrors.graph, mirrors.racking,
      mirrors.numeric⟩
  rw [← mirrors.carriers] at ran
  have done : onCarriers (fun carriers => return ((), ← work carriers)) again =
      .ok () { again with carriers := carriers } := by
    simp only [onCarriers, ran]
    rfl
  refine ⟨_, ?_, mirrored⟩
  -- Each instruction about a carrier names the operation that gave it.
  cases operation <;> cases moves <;> exact replayed_one rfl (emit_done done)

theorem Mirrors.tuned (mirrors : machine.Mirrors again) {operation : Operation}
    {lines : List Line} (tuning : Tuning machine operation lines next) :
    ∃ final, Replayed (Line.instructions lines) again final ∧ next.Mirrors final := by
  cases tuning with
  | unseen _ bare same =>
      rw [bare]
      exact ⟨again, replayed_nil again, mirrors.unseen same⟩
  | racked _ checked => exact mirrors.racked checked
  | carried moves ran => exact mirrors.carried moves ran

/-- What a call does is done again by replaying the instructions of its lines. -/
theorem Effect.replayed {call : Call} {lines : List Line} (effect : Effect machine call lines next)
    (mirrors : machine.Mirrors again) (sound : machine.Sound) (soundAgain : again.Sound) :
    ∃ final, Replayed (Line.instructions lines) again final ∧ next.Mirrors final := by
  -- The replay can fail for its own loops and graph, so it has to be sound on its own account.
  have shaped := soundAgain.shaped
  cases effect with
  | retuned tuning => exact mirrors.tuned tuning
  | regauged _ => exact ⟨again, replayed_nil again, mirrors.regauged _⟩
  | recorded _ => exact ⟨again, replayed_nil again, mirrors.recordedLeft _⟩
  | knitted checked feeds =>
      rw [← mirrors.checkMaking] at checked
      rw [← mirrors.carriers] at feeds
      obtain ⟨yarns, fed, fedAgain, _, ran⟩ := knit_done shaped soundAgain.known checked
      cases feeds.symm.trans fedAgain
      rw [mirrors.loops] at ran
      exact ⟨_, replayed_one rfl (emit_done ran), (mirrors.made _ _ _ _ _).recorded _⟩
  | tucked checked feeds =>
      rw [← mirrors.checkMaking] at checked
      rw [← mirrors.carriers] at feeds
      obtain ⟨yarns, fed, fedAgain, _, ran⟩ := tuck_done shaped checked
      cases feeds.symm.trans fedAgain
      rw [mirrors.loops] at ran
      exact ⟨_, replayed_one rfl (emit_done ran), (mirrors.made _ _ _ _ _).recorded _⟩
  | splitted checked feeds =>
      rw [← mirrors.carriers] at feeds
      obtain ⟨yarns, fed, fedAgain, _, ran⟩ :=
        split_done shaped soundAgain.known (mirrors.checkSplit checked)
      cases feeds.symm.trans fedAgain
      exact ⟨_, replayed_one rfl (emit_done ran),
        ((mirrors.transferred _ _).made _ _ _ _ _).recorded _⟩
  | dropped checked =>
      rw [← mirrors.checkWork] at checked
      exact ⟨_, replayed_one rfl (emit_done (drop_done shaped checked)),
        (mirrors.put _ []).recorded _⟩
  | transferred checked =>
      exact ⟨_, mirrors.xfer shaped checked, mirrors.transferred _ _⟩
  | peeled _ fits checked =>
      exact mirrors.peeled sound.shaped soundAgain _ (fits.crossable sound.shaped checked)
  | restored _ fits planned checked =>
      exact mirrors.restored sound.shaped soundAgain _
        (fits.crossableReturns sound.shaped planned checked)

/-- The instructions of a whole run are replayed from any machine that mirrors its start. -/
theorem Mirrors.replayed_run (mirrors : machine.Mirrors again) (sound : machine.Sound)
    (soundAgain : again.Sound) {operations : List Operation} {lines : List Line}
    (ran : Program.runAll operations machine = .ok lines next) :
    ∃ final, Replayed (Line.instructions lines) again final ∧ next.Mirrors final := by
  induction operations generalizing machine again lines with
  | nil =>
      cases ran
      exact ⟨again, replayed_nil again, mirrors⟩
  | cons operation rest ih =>
      obtain ⟨first, middle, others, applied, restRan, rfl⟩ := runAll_cons_eq_ok.mp ran
      have effect : Effect machine (.apply operation) first middle :=
        effect_of_ok sound.shaped sound.known applied
      obtain ⟨between, here, mirrored⟩ := effect.replayed mirrors sound soundAgain
      obtain ⟨final, onward, done⟩ :=
        ih mirrored (effect.evolved sound).sound (here.sound soundAgain) restRan
      rw [instructions_append]
      exact ⟨final, here.append onward, done⟩

theorem mirrors_initial (spec : Spec) : (initial spec).Mirrors (initial spec) :=
  ⟨rfl, rfl, rfl, rfl, rfl, rfl, rfl⟩

structure Agree (final again : Machine) : Prop where
  loops : ∀ needle, again.loopsAt needle = final.loopsAt needle
  graph : again.graph = final.graph
  carriers : again.carriers = final.carriers
  racking : again.racking.equal final.racking = true

theorem Mirrors.agree (mirrors : final.Mirrors again) : final.Agree again where
  loops needle := by rw [Machine.loopsAt, mirrors.bed]; rfl
  graph := mirrors.graph
  carriers := mirrors.carriers
  racking := by
    obtain ⟨place, found⟩ := Option.isSome_iff_exists.mp mirrors.numeric
    rw [mirrors.equal, Binary64.equal, found]
    exact beq_self_eq_true place

/-- The knitout of a program determines the machine that the program leaves: its instructions are
themselves a program, which runs from the same empty machine, gives them again, and ends alike. -/
theorem knitout_determines_machine {spec : Spec} {start final : Machine} {program : Program}
    {lines : List Line} (word : spec.needleCount < Text.wordCount)
    (empty : Machine.of spec = .ok start) (ran : program.run start = .ok lines final) :
    ∃ (replay : Program) (again : Machine), Program.ofLines? spec lines = some replay ∧
      replay.run start = .ok ((Line.instructions lines).map .plain) again ∧
        final.Agree again := by
  obtain ⟨valid, rfl⟩ := of_eq_ok.mp empty
  have sound := sound_initial valid word
  obtain ⟨again, ⟨operations, named, done⟩, mirrors⟩ :=
    (mirrors_initial spec).replayed_run sound sound ran
  refine ⟨⟨some spec, operations⟩, again, ?_, done, mirrors.agree⟩
  rw [Program.ofLines?, named]
  rfl

def told? : EStateM.Result Fault Machine (List Line) → Option (List Instruction)
  | .ok lines _ => some (Line.instructions lines)
  | .error _ _ => none

def peeling : Program where
  machine := none
  operations := [.rack Binary64.zero.neg, .inhook ⟨1⟩, .tuck (.front 0) [⟨1⟩] none,
    .switchDirection, .tuck (.front 1) [⟨1⟩] none, .gauge 2, .peel 0, .comment "peeled"]

theorem knitout_determines_machine_peeling :
    ∃ lines final, peeling.run (initial twoNeedles) = .ok lines final ∧
      Line.instructions lines = [.inhook [⟨1⟩], .tuck .leftToRight (.front 0) [⟨1⟩],
        .tuck .rightToLeft (.front 1) [⟨1⟩], .xfer (.front 1) (.back 1)] ∧
      ∃ (replay : Program) (again : Machine), Program.ofLines? twoNeedles lines = some replay ∧
        replay.run (initial twoNeedles) = .ok ((Line.instructions lines).map .plain) again ∧
          final.Agree again := by
  have told : told? (peeling.run (initial twoNeedles)) =
      some [.inhook [⟨1⟩], .tuck .leftToRight (.front 0) [⟨1⟩],
        .tuck .rightToLeft (.front 1) [⟨1⟩], .xfer (.front 1) (.back 1)] := by
    decide +kernel
  cases ran : peeling.run (initial twoNeedles) with
  | error fault next =>
      rw [ran] at told
      cases told
  | ok lines final =>
      rw [ran] at told
      exact ⟨lines, final, rfl, Option.some.inj told,
        knitout_determines_machine (by decide) rfl ran⟩

end Machine

end VBed
