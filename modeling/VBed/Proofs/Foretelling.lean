import VBed.Proofs.TransferLines

/-!
A reset foretells its own run. What its plan expects of every position is what the moves of the plan
leave there, and the returns found from it keep off the positions of the moves. So nothing that
comes before a return disturbs it: its loops are still there, and the opposite needle is empty.
-/

namespace VBed.Machine

variable {machine next : Machine} {plan : PeelPlan} {sheets : List Nat} {returns : List Needle}

section Moves

variable {active : String} {lines : List Line}

theorem moved_of_moveAcross (shaped : machine.Shaped) {needle : Needle} {line : Line}
    (ran : moveAcross needle machine = .ok line next) :
    next = machine.moved needle needle.opposite := by
  obtain ⟨loops, middle, moves, same⟩ := run_bind_eq_ok.mp ran
  cases same
  obtain ⟨_, checked, _⟩ := ask_bind_eq_ok.mp moves
  cases (shift_done shaped checked).symm.trans moves
  rfl

theorem crossed_of_peelSheet (shaped : machine.Shaped) {sheet : Nat}
    (ran : peelSheet plan active sheet machine = .ok lines next) :
    next = machine.crossed (plan.movesOf machine sheet) := by
  rw [peelSheet, run_get_bind] at ran
  obtain ⟨moved, middle, moves, same⟩ := run_bind_eq_ok.mp ran
  cases same
  refine mapM_run_eq_foldl Shaped (fun current needle line later holds crosses => ?_) shaped moves
  obtain rfl := moved_of_moveAcross holds crosses
  exact ⟨rfl, holds.moved needle needle.opposite⟩

theorem crossed_of_carryOut (shaped : machine.Shaped)
    (ran : carryOut plan active machine = .ok lines next) :
    next = machine.crossed (plan.ordered machine) := by
  rw [carryOut, run_get_bind] at ran
  obtain ⟨peeled, middle, peels, same⟩ := run_bind_eq_ok.mp ran
  cases same
  rw [PeelPlan.ordered, crossed, List.foldl_flatMap]
  -- The moves are listed by sheets of one gauge, which they keep.
  refine mapM_run_eq_foldl (fun current => current.Shaped ∧ current.gauge = machine.gauge)
    (fun current sheet headed later holds peelsSheet => ?_) ⟨shaped, rfl⟩ peels
  obtain ⟨currentShaped, sameGauge⟩ := holds
  have sameMoves : plan.movesOf current sheet = plan.movesOf machine sheet := by
    simp only [PeelPlan.movesOf, sheetOf, sameGauge]
  obtain rfl := crossed_of_peelSheet currentShaped peelsSheet
  rw [sameMoves]
  exact ⟨rfl, currentShaped.crossed _, by rw [gauge_crossed, sameGauge]⟩

theorem peeled_of_resetUpTo (shaped : machine.Shaped)
    (ran : resetUpTo plan active returns [] machine = .ok lines next) :
    next = machine.peeled plan (plan.moves ++ returns) := by
  rw [resetUpTo, run_bind_ok (straightenFor_done shaped _)] at ran
  obtain ⟨carried, middle, carries, same⟩ := run_bind_eq_ok.mp ran
  cases same
  have straightShaped := (machine.straightened_undisturbed (plan.moves ++ returns)).shaped shaped
  rw [crossed_of_carryOut straightShaped carries, ordered_straightened, peeled]

end Moves

theorem projected_of_mem (apart : Strict.Apart plan.moves) {needle : Needle}
    (member : needle ∈ plan.moves) :
    plan.projected machine needle.position = .only needle.side.opposite := by
  obtain ⟨side, position, slider⟩ := needle
  obtain rfl : slider = false := apart.ordinary _ member
  cases side with
  | front =>
      have isMove : Needle.front position ∈ plan.moves := member
      simp [PeelPlan.projected, isMove, Presence.only, Side.opposite]
  | back =>
      have isMove : Needle.back position ∈ plan.moves := member
      have noFront : Needle.front position ∉ plan.moves := fun alsoMember => by
        cases apart.single _ alsoMember _ member rfl
      simp [PeelPlan.projected, isMove, noFront, Presence.only, Side.opposite]

theorem resetUpTo_append (active : String) (before rest : List Needle) :
    resetUpTo plan active returns (before ++ rest) = do
      let lines ← resetUpTo plan active returns before
      return lines ++ (← rest.mapM returnLoops) := by
  simp only [resetUpTo, List.mapM_append, bind_assoc, pure_bind, List.append_assoc]

section Foretold

variable (reachable : machine.Reachable) (exactly : plan.Exact machine sheets)
include reachable exactly

/-- What a plan expects of a position is what its moves leave there. -/
theorem presence_peeled (movers : List Needle) (position : Nat) :
    (machine.peeled plan movers).presence position = plan.projected machine position := by
  by_cases moves : ∃ needle ∈ plan.moves, needle.position = position
  · obtain ⟨needle, member, rfl⟩ := moves
    have blocks := (exactly.moves needle).mp member
    obtain ⟨left, arrived⟩ : (machine.peeled plan movers).loops needle = [] ∧ _ :=
      loops_peeled_mem reachable exactly blocks
    have oppositeOrdinary : needle.opposite.slider = false := blocks.ordinary
    have held : (machine.peeled plan movers).loops needle.opposite ≠ [] := by
      rw [arrived]
      exact List.append_ne_nil_of_right_ne_nil _ blocks.held
    rw [projected_of_mem exactly.single member]
    refine (presence_eq_only_iff oppositeOrdinary).mpr ⟨held, ?_⟩
    rw [Needle.opposite_opposite, left]
  · have elsewhere : ∀ needle ∈ plan.moves, position ≠ needle.position :=
      fun needle member same => moves ⟨needle, member, same.symm⟩
    rw [projected_settled elsewhere]
    exact (untouched_peeled reachable.sound.shaped exactly.toFits movers elsewhere).presence

theorem project_peeled (indexed : Strict.Indexed machine plan) (movers : List Needle) :
    Strict.project (.of machine.gauge plan) machine =
      some (.ok ((List.range machine.needleCount).map
        (machine.peeled plan movers).presence).toArray machine) := by
  rw [Strict.project_runs reachable.configured.current indexed,
    funext (presence_peeled reachable exactly movers)]

variable {chosen : Nat → Bool} (returning : machine.returnPlan plan chosen = .ok returns)
include returning

/-- Returns are at different positions, so those made already leave the next one as it was found. -/
theorem presence_at_return {before after : List Needle} {start : Needle}
    (split : returns = before ++ start :: after) (movers : List Needle) :
    ((machine.peeled plan movers).returned before).presence start.position = .only start.side := by
  have ascend := ascending_returns returning
  rw [split, List.pairwise_append] at ascend
  have earlier : ∀ other ∈ before, start.position ≠ other.position := fun other member =>
    Nat.ne_of_gt (ascend.2.2 other member start (List.mem_cons_self ..))
  have among : ∀ other ∈ before, other ∈ returns := fun other member => by
    rw [split]
    exact List.mem_append_left _ member
  obtain ⟨shaped, inRange⟩ : (machine.peeled plan movers).Shaped ∧ _ :=
    peeled_inRange reachable exactly fun other member =>
      (returns_fit returning (among other member)).2
  have member : start ∈ returns := by simp [split]
  obtain ⟨position, _, _, found⟩ := (returnPlan_facts returning).2 start member
  obtain ⟨rfl, _, _, expected⟩ := returnStart?_eq_some.mp found
  rw [(untouched_returned shaped inRange earlier).presence,
    presence_peeled reachable exactly movers, expected]

end Foretold

/-- The moment of a reset before one of its returns. The reset gets there and goes on from there to
its end, and then the start of the return holds loops and the needle opposite holds none. -/
def ReadyAt (machine : Machine) (plan : PeelPlan) (active : String) (resets : Action (List Line))
    (before : List Needle) (start : Needle) (after : List Needle) : Prop :=
  ∃ lines current more next,
    resetUpTo plan active (before ++ start :: after) before machine = .ok lines current ∧
      (start :: after).mapM returnLoops current = .ok more next ∧
      resets machine = .ok (lines ++ more) next ∧
      current.loops start ≠ [] ∧ current.loops start.opposite = []

theorem readyAt_of_checked (reachable : machine.Reachable) (exactly : plan.Exact machine sheets)
    {active : String} {chosen : Nat → Bool} {resets : Action (List Line)}
    (planned : resets machine = resetBy plan active chosen machine)
    {before after : List Needle} {start : Needle}
    (returning : machine.returnPlan plan chosen = .ok (before ++ start :: after))
    (checked : machine.checkCrossings (plan.ordered machine ++ (before ++ start :: after)) =
      .ok ()) :
    machine.ReadyAt plan active resets before start after := by
  have shaped := reachable.sound.shaped
  have crossable := exactly.toFits.crossableReturns shaped returning checked
  have whole := resetUpTo_done shaped active crossable
  have earlier : ∀ needle ∈ plan.ordered machine ++ before,
      needle ∈ plan.ordered machine ++ (before ++ start :: after) := by
    intro needle member
    rw [← List.append_assoc]
    exact List.mem_append_left _ member
  have part := resetUpTo_done shaped active fun needle member =>
    crossable needle (earlier needle member)
  have goesOn := whole
  rw [resetUpTo_append, run_bind_ok part] at goesOn
  obtain ⟨more, next, rest, same⟩ := run_bind_eq_ok.mp goesOn
  have isReturn : start ∈ before ++ start :: after := by simp
  have ordinary := (returns_fit returning isReturn).1
  obtain ⟨held, empty⟩ := (presence_eq_only_iff ordinary).mp
    (presence_at_return reachable exactly returning rfl _)
  refine ⟨_, _, more, next, part, rest, ?_, held, empty⟩
  rw [planned, resetBy_of_checked returning checked, whole, ← same]
  rfl

/-- A plan foretells what comes of it: what it expects of the positions is what its moves leave
there, for whatever returns they are made. A reset that is not refused before it moves anything
makes its returns, and each of them finds what was expected. -/
structure Foretells (machine : Machine) (plan : PeelPlan) (active : String) (chosen : Nat → Bool)
    (resets : Action (List Line)) : Prop where
  once : (plan.moves.map (·.position)).Nodup
  ordered : (plan.ordered machine).Perm plan.moves
  carried : machine.checkCrossings (plan.ordered machine) = .ok () → ∃ lines next,
    resetUpTo plan active [] [] machine = .ok lines next ∧
      peelBy plan active machine = .ok lines next
  foreseen : ∀ returns lines next, resetUpTo plan active returns [] machine = .ok lines next →
    (∀ position, plan.projected machine position = next.presence position) ∧
      Strict.project (.of machine.gauge plan) machine =
        some (.ok ((List.range machine.needleCount).map next.presence).toArray machine)
  apart : ∀ returns, machine.returnPlan plan chosen = .ok returns →
    ∀ start ∈ returns, ∀ needle ∈ plan.moves, start.position ≠ needle.position
  decided : (∃ fault, resets machine = .error fault machine) ∨
    ∃ returns, machine.returnPlan plan chosen = .ok returns ∧
      machine.checkCrossings (plan.ordered machine ++ returns) = .ok ()
  ready : ∀ before start after,
    machine.returnPlan plan chosen = .ok (before ++ start :: after) →
      machine.checkCrossings (plan.ordered machine ++ (before ++ start :: after)) = .ok () →
        machine.ReadyAt plan active resets before start after

theorem carried_of_checked (reachable : machine.Reachable) (exactly : plan.Exact machine sheets)
    (active : String) (checked : machine.checkCrossings (plan.ordered machine) = .ok ()) :
    ∃ lines next, resetUpTo plan active [] [] machine = .ok lines next ∧
      peelBy plan active machine = .ok lines next := by
  rw [← peelBy_of_checked checked]
  rcases peelBy_run reachable.sound.shaped exactly.toFits active with ⟨_, refused, _⟩ | ⟨_, ran⟩
  · cases refused.symm.trans checked
  · exact ⟨_, _, ran, ran⟩

theorem foretells_of_planned (reachable : machine.Reachable) (exactly : plan.Exact machine sheets)
    (indexed : Strict.Indexed machine plan)
    (ascend : plan.moves.Pairwise (·.position < ·.position)) {chosen : Nat → Bool}
    (settled : ∀ position, chosen position = true → ∀ needle ∈ plan.moves,
      position ≠ needle.position)
    {active : String} {resets : Action (List Line)}
    (planned : resets machine = resetBy plan active chosen machine) :
    machine.Foretells plan active chosen resets := by
  have shaped := reachable.sound.shaped
  have distinct := nodup_positions ascend (follows_nil : machine.Follows plan [])
  rw [List.append_nil] at distinct
  have once : (plan.moves.map (·.position)).Nodup :=
    List.pairwise_map.mpr (ascend.imp Nat.ne_of_lt)
  constructor
  · exact once
  · exact (List.perm_ext_iff_of_nodup distinct.of_map once.of_map).mpr
      fun _ => reachable.mem_ordered_iff
  · exact carried_of_checked reachable exactly active
  · intro returns lines next ran
    obtain rfl := peeled_of_resetUpTo shaped ran
    exact ⟨fun position => (presence_peeled reachable exactly _ position).symm,
      project_peeled reachable exactly indexed _⟩
  · exact fun returns returning => (follows_of_returnPlan settled returning).settled
  · rw [planned]
    rcases resetBy_run shaped exactly.toFits active chosen with
      ⟨fault, refused, _⟩ | ⟨returns, returning, checked, _⟩
    · exact Or.inl ⟨fault, refused⟩
    · exact Or.inr ⟨returns, returning, checked⟩
  · exact fun before start after => readyAt_of_checked reachable exactly planned

structure ForetellsResets (machine : Machine) : Prop where
  reset : ∀ sheet plan, machine.peelPlan sheet = .ok plan →
    machine.Foretells plan (Text.decimal sheet) (machine.chosenBy plan sheet) (reset sheet)
  resetAll : ∀ sheets plan, machine.peelPlanAll sheets = .ok plan →
    machine.Foretells plan (Text.bracketed sheets)
      (fun position => sheets.contains (machine.sheetOf position)) (resetAll sheets)

theorem foretellsResets_of_reachable (reachable : machine.Reachable) :
    machine.ForetellsResets := by
  have shaped := reachable.sound.shaped
  constructor
  · intro sheet plan planned
    have exactly := peelPlan_exact shaped planned
    refine foretells_of_planned reachable exactly (Strict.peelPlan_indexed planned)
      (ascending_peelPlan planned) (settled_of_chosenBy exactly planned) ?_
    rw [reset, run_get_bind, run_bind_ok (ask_ok planned)]
    rfl
  · intro sheets plan planned
    have exactly := peelPlanAll_exact shaped planned
    refine foretells_of_planned reachable exactly (Strict.peelPlanAll_indexed planned)
      (ascending_peelPlanAll planned) (settled_of_contains exactly) ?_
    rw [resetAll, run_get_bind, run_bind_ok (ask_ok planned)]

/-- The plan moves one needle and expects its position to hold loops in front alone; one return
follows, from a position that the plan leaves alone. -/
theorem foretellsResets_scattered :
    scattered.peelPlan 0 = .ok ⟨[.back 1], []⟩ ∧
      PeelPlan.projected ⟨[.back 1], []⟩ scattered 1 = ⟨true, false⟩ ∧
      scattered.returnPlan ⟨[.back 1], []⟩ (scattered.chosenBy ⟨[.back 1], []⟩ 0) =
        .ok [.back 0] ∧
      scattered.ForetellsResets :=
  ⟨by decide +kernel, by decide +kernel, by decide +kernel,
    foretellsResets_of_reachable (reachable_measured (by decide) (by decide) (by decide)
      (by decide +kernel) _)⟩

end VBed.Machine
