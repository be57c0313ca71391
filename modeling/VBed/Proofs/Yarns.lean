import VBed.Proofs.Hook
import VBed.Proofs.Threads

/-!
The yarns of a machine over whole runs. Every loop is made from the yarn that its carrier feeds at
that time, and a carrier that leaves by the hook feeds another segment from then on. Loops that it
makes later are therefore not continuous with those made before.
-/

namespace VBed

def Call.moves (machine : Machine) (call : Call) : List Move :=
  match call.act machine with
  | .ok _ _ => call.move?.toList
  | .error _ _ => []

namespace Machine

variable {machine next : Machine} {call : Call} {history : List Move}

def performed (machine : Machine) : List Call → List Move
  | [] => []
  | call :: rest => call.moves machine ++ (call.after machine).performed rest

theorem performed_append (first second : List Call) :
    machine.performed (first ++ second) =
      machine.performed first ++ (machine.afterAll first).performed second := by
  induction first generalizing machine with
  | nil => rfl
  | cons call rest ih =>
      rw [List.cons_append, performed, performed, ih, List.append_assoc]
      rfl

structure Fed (machine : Machine) (history : List Move) : Prop where
  agrees : machine.carriers.Agrees
  remembers : machine.carriers.Remembers history
  threaded : machine.graph.Threaded
  fed : ∀ id yarn prior, machine.graph.strand? id = some (yarn, prior) →
    (machine.carriers.carrier? yarn.carrier).isSome ∧
      yarn.segment ≤ history.count (.outhook yarn.carrier)

theorem Carries.isSome (carries : machine.Carries call next) {id : CarrierId}
    (present : (machine.carriers.carrier? id).isSome) : (next.carriers.carrier? id).isSome := by
  cases carries with
  | moved _ ran =>
      rw [(CarrierSystem.act_moved ran).carrier, Option.isSome_map]
      exact present
  | still _ same =>
      rw [same]
      exact present

theorem Carries.agrees (carries : machine.Carries call next) (agrees : machine.carriers.Agrees) :
    next.carriers.Agrees := by
  cases carries with
  | moved _ ran => exact agrees.act ran
  | still _ same =>
      rw [same]
      exact agrees

theorem Carries.remembers (carries : machine.Carries call next)
    (remembers : machine.carriers.Remembers history) :
    next.carriers.Remembers (history ++ call.move?.toList) := by
  cases carries with
  | moved moves ran =>
      rw [moves]
      exact remembers.act ran
  | still moves same =>
      rw [moves, same, Option.toList_none, List.append_nil]
      exact remembers

/-- New loops are of yarns that carriers feed before the call. -/
theorem Growth.spun (growth : machine.Growth next) :
    ∃ yarns, machine.graph.Spun yarns next.graph ∧
      ∀ yarn ∈ yarns, ∃ id carrier, machine.carriers.carrier? id = some carrier ∧
        carrier.yarn = yarn := by
  cases growth with
  | still graph _ =>
      refine ⟨[], ?_, by simp⟩
      rw [graph]
      exact .refl _ _
  | @made _ yarns parents pull feeds graph _ _ _ =>
      refine ⟨yarns, ?_, fun yarn member => ?_⟩
      · rw [graph]
        exact StitchGraph.spun_grown parents pull yarns
      · obtain ⟨_, sources⟩ :=
          CarrierSystem.feedAll_facts (CarrierSystem.makeLoop_eq_ok.mp feeds).2
        obtain ⟨id, _, carrier, found, same⟩ := sources yarn member
        exact ⟨id, carrier, found, same⟩

theorem Growth.threaded (growth : machine.Growth next) (threaded : machine.graph.Threaded) :
    next.graph.Threaded := by
  cases growth with
  | still graph _ =>
      rw [graph]
      exact threaded
  | @made _ yarns parents pull _ graph _ _ _ =>
      rw [graph]
      exact threaded.grown parents pull yarns

/-- A carrier feeds the segment that it has come to. -/
theorem Fed.source (fed : machine.Fed history) {id : CarrierId} {carrier : Carrier}
    (found : machine.carriers.carrier? id = some carrier) :
    carrier.yarn.carrier = id ∧
      carrier.yarn.segment = history.count (.outhook id) % Yarn.segmentCount :=
  ⟨(fed.agrees.identity id carrier found).2, fed.remembers.segment id carrier found⟩

theorem Fed.act (fed : machine.Fed history) (sound : machine.Sound) {lines : List Line}
    (ran : call.act machine = .ok lines next) : next.Fed (history ++ call.move?.toList) := by
  have effect := effect_of_ok sound.shaped sound.known ran
  have carries := effect.carries sound.shaped
  have growth := effect.growth sound
  obtain ⟨yarns, spun, sources⟩ := growth.spun
  refine ⟨carries.agrees fed.agrees, carries.remembers fed.remembers,
    growth.threaded fed.threaded, ?_⟩
  intro id yarn prior found
  have before : (machine.carriers.carrier? yarn.carrier).isSome ∧
      yarn.segment ≤ history.count (.outhook yarn.carrier) := by
    by_cases known : id.index < machine.graph.loopCount
    · rw [spun.old id known] at found
      exact fed.fed id yarn prior found
    · have member := spun.new id yarn prior (Nat.le_of_not_lt known) found
      obtain ⟨source, carrier, here, rfl⟩ := sources yarn member
      obtain ⟨same, segment⟩ := fed.source here
      rw [same, here, segment]
      exact ⟨rfl, Nat.mod_le _ _⟩
  rw [List.count_append]
  exact ⟨carries.isSome before.1, Nat.le_add_right_of_le before.2⟩

theorem Fed.after (fed : machine.Fed history) (sound : machine.Sound) (call : Call) :
    (call.after machine).Fed (history ++ call.moves machine) := by
  cases ran : call.act machine with
  | ok lines next =>
      rw [Call.after, Call.moves, ran]
      exact fed.act sound ran
  | error fault next =>
      have same := same_of_error sound.shaped sound.known ran
      rw [Call.after, Call.moves, ran, List.append_nil]
      rw [same]
      exact fed

theorem Fed.afterAll (fed : machine.Fed history) (sound : machine.Sound) (calls : List Call) :
    (machine.afterAll calls).Fed (history ++ machine.performed calls) := by
  induction calls generalizing machine history with
  | nil =>
      rw [performed, List.append_nil]
      exact fed
  | cons call rest ih =>
      rw [performed, ← List.append_assoc]
      exact ih (fed.after sound call) (sound.after call).sound

/-- Calls add loops of yarns that carriers feed before them, and leave the others as they are. -/
theorem Sound.spun (sound : machine.Sound) (call : Call) :
    ∃ yarns, machine.graph.Spun yarns (call.after machine).graph ∧
      ∀ yarn ∈ yarns, ∃ id carrier, machine.carriers.carrier? id = some carrier ∧
        carrier.yarn = yarn := by
  rcases after_cases sound.shaped sound.known call with unchanged | ⟨lines, effect⟩
  · rw [unchanged]
    exact ⟨[], .refl _ _, by simp⟩
  · exact (effect.growth sound).spun

theorem Sound.strand?_afterAll (sound : machine.Sound) (calls : List Call) {id : LoopId}
    (known : id.index < machine.graph.loopCount) :
    (machine.afterAll calls).graph.strand? id = machine.graph.strand? id := by
  induction calls generalizing machine with
  | nil => rfl
  | cons call rest ih =>
      obtain ⟨yarns, spun, _⟩ := sound.spun call
      rw [← spun.old id known]
      exact ih (sound.after call).sound (Nat.lt_of_lt_of_le known spun.count)

/-- A loop that is made in a run is of a segment that its carrier came to before the run, or of a
later one. -/
theorem Fed.segment_afterAll (fed : machine.Fed history) (sound : machine.Sound)
    (calls : List Call) {id : LoopId} {yarn : Yarn} {prior : Option LoopId}
    (found : (machine.afterAll calls).graph.strand? id = some (yarn, prior))
    (fresh : machine.graph.loopCount ≤ id.index)
    (bounded : (history ++ machine.performed calls).count (.outhook yarn.carrier) <
      Yarn.segmentCount) :
    history.count (.outhook yarn.carrier) ≤ yarn.segment := by
  induction calls generalizing machine history with
  | nil => exact absurd (StitchGraph.strand_lt found) (Nat.not_lt_of_le fresh)
  | cons call rest ih =>
      have nextSound := (sound.after call).sound
      rw [performed, ← List.append_assoc] at bounded
      by_cases later : (call.after machine).graph.loopCount ≤ id.index
      · have onward := ih (fed.after sound call) nextSound found later bounded
        rw [List.count_append] at onward
        omega
      · -- The call makes the loop, with the segment that the carrier has come to.
        obtain ⟨yarns, spun, sources⟩ := sound.spun call
        have made : (call.after machine).graph.strand? id = some (yarn, prior) := by
          rw [← nextSound.strand?_afterAll rest (Nat.lt_of_not_le later)]
          exact found
        obtain ⟨source, carrier, here, rfl⟩ := sources yarn (spun.new id yarn prior fresh made)
        obtain ⟨same, segment⟩ := fed.source here
        rw [same] at bounded ⊢
        rw [List.count_append, List.count_append] at bounded
        have early : history.count (.outhook source) < Yarn.segmentCount := by omega
        exact Nat.le_of_eq (segment.trans (Nat.mod_eq_of_lt early)).symm

/-- The yarns of a graph, with the segments that the carriers have come to in a history of moves. -/
structure Continuous (machine : Machine) (history : List Move) : Prop where
  increasing : ∀ yarn, (machine.graph.yarnLoops yarn).toList.Pairwise (·.index < ·.index)
  members : ∀ yarn id, id ∈ machine.graph.yarnLoops yarn ↔
    ∃ loop, machine.graph.loop? id = some loop ∧ loop.yarn = yarn
  prior : ∀ (yarn : Yarn) (position : Nat) (id : LoopId) (loop : Loop),
    (machine.graph.yarnLoops yarn)[position]? = some id → machine.graph.loop? id = some loop →
      loop.prior =
        if position = 0 then none else (machine.graph.yarnLoops yarn)[position - 1]?
  fed : ∀ id loop, machine.graph.loop? id = some loop →
    ∃ carrier, machine.carriers.carrier loop.yarn.carrier = .ok carrier ∧
      (history.count (.outhook loop.yarn.carrier) < Yarn.segmentCount →
        loop.yarn.segment ≤ carrier.yarn.segment)

/-- Loops made with a carrier since its yarn was cut are not continuous with those made before. -/
structure Severed (cut final : Machine) (id : CarrierId) : Prop where
  apart : ∀ old new oldLoop newLoop, old.index < cut.graph.loopCount →
    cut.graph.loopCount ≤ new.index → final.graph.loop? old = some oldLoop →
      final.graph.loop? new = some newLoop → newLoop.yarn.carrier = id →
        newLoop.yarn ≠ oldLoop.yarn
  first : ∀ new newLoop, cut.graph.loopCount ≤ new.index →
    final.graph.loop? new = some newLoop → newLoop.yarn.carrier = id →
      (∀ other otherLoop, cut.graph.loopCount ≤ other.index → other.index < new.index →
        final.graph.loop? other = some otherLoop → otherLoop.yarn.carrier ≠ id) →
        newLoop.prior = none

theorem strand?_of_loop? {id : LoopId} {loop : Loop} (found : machine.graph.loop? id = some loop) :
    machine.graph.strand? id = some (loop.yarn, loop.prior) :=
  StitchGraph.strand?_eq_some.mpr ⟨loop, found, rfl⟩

theorem Fed.continuous (fed : machine.Fed history) : machine.Continuous history := by
  constructor
  · exact fed.threaded.increasing
  · intro yarn id
    constructor
    · intro member
      obtain ⟨position, found⟩ := Array.mem_iff_getElem?.mp member
      obtain ⟨loop, here, same⟩ :=
        StitchGraph.strand?_eq_some.mp (fed.threaded.prior yarn position id found)
      exact ⟨loop, here, congrArg Prod.fst same⟩
    · rintro ⟨loop, here, rfl⟩
      exact fed.threaded.listed id loop.yarn loop.prior (strand?_of_loop? here)
  · intro yarn position id loop found here
    have strand := fed.threaded.prior yarn position id found
    rw [strand?_of_loop? here] at strand
    exact congrArg Prod.snd (Option.some.inj strand)
  · intro id loop here
    obtain ⟨present, segment⟩ := fed.fed id loop.yarn loop.prior (strand?_of_loop? here)
    obtain ⟨carrier, found⟩ := Option.isSome_iff_exists.mp present
    refine ⟨carrier, CarrierSystem.carrier_eq_ok.mpr found, fun bounded => ?_⟩
    rw [(fed.source found).2, Nat.mod_eq_of_lt bounded]
    exact segment

theorem Fed.severed (fed : machine.Fed history) (sound : machine.Sound) {id : CarrierId}
    {lines : List Line} {cut : Machine}
    (cuts : (Call.apply (.outhook id)).act machine = .ok lines cut) (later : List Call)
    (bounded : (history ++ [Move.outhook id] ++ cut.performed later).count (.outhook id) <
      Yarn.segmentCount) : Severed cut (cut.afterAll later) id := by
  have evolved := sound.after (.apply (.outhook id))
  rw [after_of_act cuts] at evolved
  have graph : cut.graph = machine.graph := evolved.graph rfl
  have cutFed : cut.Fed (history ++ [.outhook id]) := fed.act sound cuts
  have finalFed := cutFed.afterAll evolved.sound later
  -- Loops made before are of segments up to the one that was cut, later loops of later ones.
  have apart : ∀ old new oldLoop newLoop, old.index < cut.graph.loopCount →
      cut.graph.loopCount ≤ new.index → (cut.afterAll later).graph.loop? old = some oldLoop →
        (cut.afterAll later).graph.loop? new = some newLoop → newLoop.yarn.carrier = id →
          newLoop.yarn ≠ oldLoop.yarn := by
    intro old new oldLoop newLoop known fresh foundOld foundNew named same
    have oldStrand := strand?_of_loop? foundOld
    rw [evolved.sound.strand?_afterAll later known, graph] at oldStrand
    have before := (fed.fed old _ _ oldStrand).2
    have after := cutFed.segment_afterAll evolved.sound later (strand?_of_loop? foundNew) fresh
    rw [named] at after
    have segment := after bounded
    rw [List.count_append, List.count_singleton_self] at segment
    rw [← same, named] at before
    omega
  refine ⟨apart, ?_⟩
  intro new newLoop fresh foundNew named first
  cases prior : newLoop.prior with
  | none => rfl
  | some before =>
      have strand := strand?_of_loop? foundNew
      rw [prior] at strand
      obtain ⟨earlier, _, beforeStrand⟩ := finalFed.threaded.prior_before strand
      obtain ⟨beforeLoop, foundBefore, same⟩ := StitchGraph.strand?_eq_some.mp beforeStrand
      have sameYarn : beforeLoop.yarn = newLoop.yarn := congrArg Prod.fst same
      by_cases since : cut.graph.loopCount ≤ before.index
      · refine absurd ?_ (first before beforeLoop since earlier foundBefore)
        rw [sameYarn, named]
      · have known : before.index < cut.graph.loopCount := Nat.lt_of_not_le since
        exact absurd sameYarn.symm
          (apart before new beforeLoop newLoop known fresh foundBefore foundNew named)

/-- The yarns are continuous after any calls from the empty machine, and cutting the yarn of a
carrier severs what the carrier makes later from all that was made before. -/
theorem continuous_afterAll {spec : Spec} {start : Machine}
    (word : spec.needleCount < Text.wordCount) (empty : Machine.of spec = .ok start)
    (calls : List Call) :
    (start.afterAll calls).Continuous (start.performed calls) ∧
      ∀ before id lines cut later, calls = before ++ .apply (.outhook id) :: later →
        (Call.apply (.outhook id)).act (start.afterAll before) = .ok lines cut →
          (start.performed calls).count (.outhook id) < Yarn.segmentCount →
            Severed cut (start.afterAll calls) id := by
  have sound := (Reachable.start word empty).sound
  have fed : start.Fed [] := by
    obtain ⟨_, rfl⟩ := of_eq_ok.mp empty
    refine ⟨CarrierSystem.agrees_of _ _, CarrierSystem.remembers_of _ _,
      StitchGraph.threaded_empty, ?_⟩
    intro id yarn prior found
    cases found
  refine ⟨(fed.afterAll sound calls).continuous, ?_⟩
  rintro before id lines cut later rfl cuts bounded
  have beforeSound := ((Reachable.start word empty).afterAll before).sound
  have final : start.afterAll (before ++ .apply (.outhook id) :: later) = cut.afterAll later := by
    rw [afterAll, List.foldl_append, List.foldl_cons]
    exact congrArg (afterAll · later) (after_of_act cuts)
  have moves : start.performed (before ++ .apply (.outhook id) :: later) =
      start.performed before ++ [Move.outhook id] ++ cut.performed later := by
    rw [performed_append, performed, after_of_act cuts, Call.moves, cuts, List.append_assoc]
    rfl
  rw [moves] at bounded
  rw [final]
  exact (fed.afterAll sound before).severed beforeSound cuts later bounded

theorem continuous_cut_tucked :
    let before : List Call := [.apply (.bringIn ⟨1⟩), .apply (.tuck (.front 0) [⟨1⟩] none)]
    let later : List Call := [.apply (.bringIn ⟨1⟩), .apply (.tuck (.front 1) [⟨1⟩] none)]
    let calls := before ++ .apply (.outhook ⟨1⟩) :: later
    let final := (initial twoNeedles).afterAll calls
    final.graph.strand? ⟨0⟩ = some (⟨⟨1⟩, 0⟩, none) ∧
      final.graph.strand? ⟨1⟩ = some (⟨⟨1⟩, 1⟩, none) ∧
        final.Continuous ((initial twoNeedles).performed calls) ∧
          ∃ cut, Severed cut final ⟨1⟩ := by
  intro before later calls final
  have cuts : (Call.apply (.outhook ⟨1⟩)).moves ((initial twoNeedles).afterAll before) =
      [.outhook ⟨1⟩] := by decide +kernel
  obtain ⟨continuous, severed⟩ :=
    continuous_afterAll (by decide) (rfl : Machine.of twoNeedles = .ok _) calls
  refine ⟨by decide +kernel, by decide +kernel, continuous, ?_⟩
  cases ran : (Call.apply (.outhook ⟨1⟩)).act ((initial twoNeedles).afterAll before) with
  | ok lines cut =>
      exact ⟨cut, severed before ⟨1⟩ lines cut later rfl ran (by decide +kernel)⟩
  | error fault next =>
      rw [Call.moves, ran] at cuts
      cases cuts

/-- A carrier that leaves by the hook cuts its own yarn alone. -/
theorem outhook_severs_own_yarn_only :
    let spec : Spec := ⟨2, .zero, 2, 1⟩
    let before := (initial spec).afterAll [.apply (.bringIn ⟨1⟩), .apply (.bringIn ⟨2⟩),
      .apply (.tuck (.front 0) [⟨2⟩] none)]
    let cut := Call.after (.apply (.outhook ⟨1⟩)) before
    let final := cut.afterAll [.apply (.tuck (.front 1) [⟨2⟩] none)]
    Machine.of spec = .ok (initial spec) ∧
      Call.moves before (.apply (.outhook ⟨1⟩)) = [.outhook ⟨1⟩] ∧
        ¬∀ old new oldLoop newLoop, old.index < cut.graph.loopCount →
          cut.graph.loopCount ≤ new.index → final.graph.loop? old = some oldLoop →
            final.graph.loop? new = some newLoop → newLoop.yarn ≠ oldLoop.yarn := by
  intro spec before cut final
  refine ⟨rfl, by decide +kernel, fun severed => ?_⟩
  have oldLoop : final.graph.loop? ⟨0⟩ = some ⟨⟨0⟩, ⟨⟨2⟩, 0⟩, none, [], []⟩ := by decide +kernel
  have newLoop : final.graph.loop? ⟨1⟩ = some ⟨⟨1⟩, ⟨⟨2⟩, 0⟩, some ⟨0⟩, [], []⟩ := by
    decide +kernel
  exact severed ⟨0⟩ ⟨1⟩ _ _ (by decide +kernel) (by decide +kernel) oldLoop newLoop rfl

end Machine

end VBed
