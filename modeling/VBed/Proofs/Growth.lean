import VBed.Proofs.CarrierMoves
import VBed.Proofs.LoopIdentity

/-!
How the graph grows. New loops are added one at a time, each with its stitches; `loop?_added` says
what every loop of the graph becomes. A call leaves the graph alone, or adds one loop for each yarn
that the carriers feed, pulled through loops that the machine then no longer holds.
-/

namespace VBed

namespace StitchGraph

variable {graph : StitchGraph}

def next (graph : StitchGraph) : LoopId := ⟨graph.loopCount⟩

def last? (graph : StitchGraph) (yarn : Yarn) : Option LoopId := (graph.yarnLoops yarn).back?

def stitches (graph : StitchGraph) : List Stitch := graph.loops.toList.flatMap (·.parents)

def threads (graph : StitchGraph) (parents : List LoopId) (pull : Pull) : List Stitch :=
  parents.map fun parent => ⟨parent, graph.next, pull⟩

def added (graph : StitchGraph) (parents : List LoopId) (pull : Pull) (yarn : Yarn) : StitchGraph :=
  (graph.newLoop yarn).2.pulledThrough graph.next pull parents

def sewn (graph : StitchGraph) (stitches : List Stitch) : StitchGraph :=
  stitches.foldl addStitch graph

theorem loop?_addStitch (stitch : Stitch) (id : LoopId) :
    (graph.addStitch stitch).loop? id =
      (graph.loop? id).map fun loop =>
        { loop with
          parents := if stitch.child = id then loop.parents ++ [stitch] else loop.parents
          children :=
            if stitch.parent = id then loop.children ++ [stitch] else loop.children } := by
  have sameChild : stitch.child = id ↔ stitch.child.index = id.index := by
    cases stitch.child
    cases id
    simp
  have sameParent : stitch.parent = id ↔ stitch.parent.index = id.index := by
    cases stitch.parent
    cases id
    simp
  simp only [loop?, addStitch, Array.getElem?_modify, sameChild, sameParent]
  cases graph.loops[id.index]? with
  | none => split <;> split <;> rfl
  | some loop => split <;> split <;> rfl

theorem loop?_sewn (stitches : List Stitch) (id : LoopId) :
    (graph.sewn stitches).loop? id =
      (graph.loop? id).map fun loop =>
        { loop with
          parents := loop.parents ++ stitches.filter (·.child = id)
          children := loop.children ++ stitches.filter (·.parent = id) } := by
  induction stitches generalizing graph with
  | nil => simp [sewn]
  | cons stitch rest ih =>
      change ((graph.addStitch stitch).sewn rest).loop? id = _
      rw [ih, loop?_addStitch, Option.map_map]
      congr 1
      funext loop
      simp only [Function.comp, List.filter_cons]
      split <;> split <;> simp_all

theorem added_eq (parents : List LoopId) (pull : Pull) (yarn : Yarn) :
    graph.added parents pull yarn = (graph.newLoop yarn).2.sewn (graph.threads parents pull) := by
  rw [added, pulledThrough, sewn, threads, List.foldl_map]

theorem grown_cons (parents : List LoopId) (pull : Pull) (yarn : Yarn) (rest : List Yarn) :
    graph.grown parents pull (yarn :: rest) =
      (graph.added parents pull yarn).grown parents pull rest := rfl

theorem grown_preserves (motive : StitchGraph → Prop) {parents : List LoopId} {pull : Pull}
    {yarns : List Yarn}
    (step : ∀ current : StitchGraph, ∀ yarn ∈ yarns, motive current →
      motive (current.added parents pull yarn))
    (holds : motive graph) : motive (graph.grown parents pull yarns) := by
  induction yarns generalizing graph with
  | nil => exact holds
  | cons yarn rest ih =>
      rw [grown_cons]
      exact ih (fun current other member => step current other (by simp [member]))
        (step graph yarn (by simp) holds)

@[simp] theorem loopCount_added (parents : List LoopId) (pull : Pull) (yarn : Yarn) :
    (graph.added parents pull yarn).loopCount = graph.loopCount + 1 := by
  rw [added, loopCount_pulledThrough, loopCount_newLoop]

theorem eq_next_iff {id : LoopId} : id = graph.next ↔ id.index = graph.loopCount := by
  cases id
  simp [next]

theorem loop?_isSome {id : LoopId} : (graph.loop? id).isSome ↔ id.index < graph.loopCount := by
  simp [loop?, loopCount]

theorem loop?_newLoop (yarn : Yarn) (id : LoopId) :
    (graph.newLoop yarn).2.loop? id =
      if id = graph.next then some ⟨graph.next, yarn, graph.last? yarn, [], []⟩
      else graph.loop? id := by
  simp only [eq_next_iff, loop?, newLoop, loopCount, Array.getElem?_push]
  rfl

theorem child_of_threads {parents : List LoopId} {pull : Pull} {stitch : Stitch}
    (member : stitch ∈ graph.threads parents pull) :
    stitch.parent ∈ parents ∧ stitch.child = graph.next ∧ stitch.pull = pull := by
  obtain ⟨parent, inParents, rfl⟩ := List.mem_map.mp member
  exact ⟨inParents, rfl, rfl⟩

theorem threads_of_child (parents : List LoopId) (pull : Pull) (id : LoopId) :
    (graph.threads parents pull).filter (·.child = id) =
      if id = graph.next then graph.threads parents pull else [] := by
  split
  · rename_i new
    rw [List.filter_eq_self]
    intro stitch member
    simp [new, (child_of_threads member).2.1]
  · rename_i old
    rw [List.filter_eq_nil_iff]
    intro stitch member
    simp [Ne.symm old, (child_of_threads member).2.1]

/-- The new loop has the stitches to its parents; the old loops keep theirs, and those that are
parents get the new ones. -/
theorem loop?_added (parents : List LoopId) (pull : Pull) (yarn : Yarn) (id : LoopId) :
    (graph.added parents pull yarn).loop? id =
      if id = graph.next then
        some ⟨graph.next, yarn, graph.last? yarn, graph.threads parents pull,
          (graph.threads parents pull).filter (·.parent = id)⟩
      else
        (graph.loop? id).map fun loop =>
          { loop with
            children := loop.children ++ (graph.threads parents pull).filter (·.parent = id) } := by
  rw [added_eq, loop?_sewn, loop?_newLoop, threads_of_child]
  by_cases new : id = graph.next
  · simp [new]
  · simp [new]

/-- New stitches come behind all others. -/
theorem stitches_added (parents : List LoopId) (pull : Pull) (yarn : Yarn) :
    (graph.added parents pull yarn).stitches = graph.stitches ++ graph.threads parents pull := by
  have perLoop : (graph.added parents pull yarn).loops.map (·.parents) =
      (graph.loops.map (·.parents)).push (graph.threads parents pull) := by
    apply Array.ext_getElem?
    intro index
    have view : (graph.added parents pull yarn).loops[index]? = _ :=
      loop?_added parents pull yarn ⟨index⟩
    rw [Array.getElem?_map, view, Array.getElem?_push, Array.size_map, Array.getElem?_map]
    by_cases new : (⟨index⟩ : LoopId) = graph.next
    · have last : index = graph.loops.size := eq_next_iff.mp new
      rw [if_pos new, if_pos last, Option.map_some]
    · have earlier : index ≠ graph.loops.size := fun same => new (eq_next_iff.mpr same)
      rw [if_neg new, if_neg earlier, Option.map_map]
      rfl
  have flat : ∀ other : StitchGraph, other.stitches =
      (other.loops.map (·.parents)).toList.flatten := by
    intro other
    rw [stitches, List.flatMap, Array.toList_map]
  rw [flat, perLoop, Array.toList_push, List.flatten_append, ← flat]
  simp

end StitchGraph

def Call.move? : Call → Option Move
  | apply (.bringIn carrier) => some (.bringIn carrier)
  | apply (.inhook carrier) => some (.inhook carrier)
  | apply (.releasehook carrier) => some (.releasehook carrier)
  | apply (.out carrier) => some (.out carrier)
  | apply (.outhook carrier) => some (.outhook carrier)
  | apply (.knit _ carriers _) => some (.makeLoop carriers)
  | apply (.tuck _ carriers _) => some (.makeLoop carriers)
  | apply (.split _ _ carriers _) => some (.makeLoop carriers)
  | _ => none

theorem Call.Peels.move {machine : Machine} {plan : Machine.PeelPlan} {call : Call}
    (peels : call.Peels machine plan) : call.move? = none := by
  unfold Call.Peels at peels
  split at peels <;> first | rfl | cases peels

theorem Call.Resets.move {machine : Machine} {plan : Machine.PeelPlan} {chosen : Nat → Bool}
    {call : Call} (resets : call.Resets machine plan chosen) : call.move? = none := by
  unfold Call.Resets at resets
  split at resets <;> first | rfl | cases resets

namespace Machine

variable {machine next last : Machine}

inductive Growth (machine next : Machine) : Prop
  | still (graph : next.graph = machine.graph)
      (remains : ∀ loop, next.Holds loop → machine.Holds loop)
  | made {carriers : CarrierSet} {yarns : List Yarn} {parents : List LoopId} {pull : Pull}
      (feeds : machine.carriers.makeLoop carriers = .ok (yarns, next.carriers))
      (graph : next.graph = machine.graph.grown parents pull yarns)
      (once : parents.Nodup)
      (held : ∀ parent ∈ parents, machine.Holds parent)
      (remains : ∀ loop, next.Holds loop →
        machine.Holds loop ∧ loop ∉ parents ∨ machine.graph.loopCount ≤ loop.index)

theorem Rearranged.growth (same : machine.Rearranged next) : machine.Growth next :=
  .still same.graph fun loop => (same.holds loop).mp

theorem Rearranged.grows (same : machine.Rearranged next)
    (carriers : next.carriers = machine.carriers) (growth : next.Growth last) :
    machine.Growth last := by
  cases growth with
  | still graph remains =>
      exact .still (graph.trans same.graph) fun loop held =>
        (same.holds loop).mp (remains loop held)
  | made feeds graph once held remains =>
      rw [carriers] at feeds
      rw [same.graph] at graph remains
      refine .made feeds graph once ?_ ?_
      · exact fun parent member => (same.holds parent).mp (held parent member)
      · intro loop here
        rw [← same.holds]
        exact remains loop here

/-- A needle holds each loop once, so that what it keeps is apart from what it does not. -/
theorem Sound.parted (sound : machine.Sound) {needle : Needle} {kept parents : List LoopId}
    (parts : kept ++ parents = machine.loops needle) :
    parents.Nodup ∧ (∀ parent ∈ parents, parent ∈ machine.loops needle) ∧
      ∀ loop ∈ kept, loop ∈ machine.loops needle ∧ loop ∉ parents := by
  have unique : (kept ++ parents).Nodup := by
    rw [parts]
    exact sound.once needle
  obtain ⟨_, once, apart⟩ := List.nodup_append.mp unique
  rw [← parts]
  exact ⟨once, fun parent member => List.mem_append_right kept member, fun loop member =>
    ⟨List.mem_append_left parents member, fun isParent => apart loop member loop isParent rfl⟩⟩

/-- A needle gets new loops, pulled through those of its loops that it does not keep. -/
theorem Sound.growth_made (sound : machine.Sound) {needle : Needle}
    (inRange : needle.position < machine.needleCount) {carriers : CarrierSet} {yarns : List Yarn}
    {fed : CarrierSystem} (feeds : machine.carriers.makeLoop carriers = .ok (yarns, fed))
    {kept parents : List LoopId} (parts : kept ++ parents = machine.loops needle) :
    machine.Growth ((machine.made needle fed yarns kept parents).recorded needle.position) := by
  obtain ⟨parentsOnce, parentHeld, keptHeld⟩ := sound.parted parts
  refine .made feeds rfl parentsOnce (fun parent member => ⟨needle, parentHeld parent member⟩) ?_
  rintro loop ⟨other, member⟩
  rw [loops_recorded, loops_made sound.shaped inRange] at member
  by_cases here : other = needle
  · rw [if_pos here] at member
    rcases List.mem_append.mp member with old | new
    · obtain ⟨held, notParent⟩ := keptHeld loop old
      exact Or.inl ⟨⟨needle, held⟩, notParent⟩
    · exact Or.inr (StitchGraph.mem_nextLoops.mp new).1
  · rw [if_neg here] at member
    refine Or.inl ⟨⟨other, member⟩, fun isParent => here ?_⟩
    exact sound.single other needle loop member (parentHeld loop isParent)

theorem Effect.growth (sound : machine.Sound) {call : Call} {lines : List Line}
    (effect : Effect machine call lines next) : machine.Growth next := by
  cases effect with
  | retuned tuning => exact (tuning.retuned.toUndisturbed.rearranged sound).growth
  | @regauged number _ => exact ((machine.regauged_undisturbed number).rearranged sound).growth
  | recorded _ => exact (sound.recorded _).growth
  | knitted checked feeds =>
      obtain ⟨inRange, _⟩ := (checkMaking_eq_ok sound.shaped).mp checked
      exact sound.growth_made inRange feeds (List.nil_append _)
  | tucked checked feeds =>
      obtain ⟨inRange, _⟩ := (checkMaking_eq_ok sound.shaped).mp checked
      exact sound.growth_made inRange feeds (List.append_nil _)
  | @splitted start target _ _ _ _ checked feeds =>
      obtain ⟨transfer, _⟩ := (checkSplit_eq_ok sound.shaped).mp checked
      obtain ⟨startInRange, targetInRange, sides, _⟩ :=
        (checkTransfer_eq_ok sound.shaped).mp transfer
      have differs : start ≠ target := fun same => sides (by rw [same])
      have moved := sound.transferred differs startInRange targetInRange
      have carriers : (machine.transferred start target).carriers = machine.carriers :=
        carriers_moved start target
      have emptied : (machine.transferred start target).loops start = [] := by
        rw [loops_transferred, loops_moved_start sound.shaped startInRange targetInRange differs]
      rw [← carriers] at feeds
      refine moved.grows carriers (moved.sound.growth_made ?_ feeds ?_)
      · rwa [moved.needleCount]
      · rw [emptied, List.append_nil]
  | @dropped needle checked =>
      have inRange := (checkNeedle_eq_ok sound.shaped).mp (then_eq_ok.mp checked).1
      obtain ⟨emptySound, remains⟩ := sound.emptied inRange
      refine .still (graph_put needle []) fun loop held => ?_
      exact remains loop (((emptySound.recorded needle.position).holds loop).mp held)
  | transferred checked =>
      obtain ⟨startInRange, targetInRange, sides, _⟩ :=
        (checkTransfer_eq_ok sound.shaped).mp checked
      exact (sound.transferred (fun same => sides (by rw [same])) startInRange targetInRange).growth
  | @peeled _ plan _ _ _ fits _ => exact (sound.peeled fits plan.moves).growth
  | restored _ fits planned _ => exact (sound.restored fits planned).growth

inductive Carries (machine : Machine) (call : Call) (next : Machine) : Prop
  | moved {move : Move} (moves : call.move? = some move)
      (ran : move.act machine.carriers = .ok next.carriers)
  | still (moves : call.move? = none) (same : next.carriers = machine.carriers)

theorem Tuning.carries {operation : Operation} {lines : List Line}
    (tuning : Tuning machine operation lines next) :
    machine.Carries (.apply operation) next := by
  cases tuning with
  | unseen silent _ same =>
      refine .still ?_ same.carriers
      cases operation <;> first | rfl | cases silent
  | racked racks _ =>
      refine .still ?_ rfl
      cases operation <;> first | rfl | simp [Operation.racking?] at racks
  | carried moves ran =>
      cases operation <;> simp only [Operation.carrierWork?, Option.some.injEq, Prod.mk.injEq,
        reduceCtorEq] at moves
      all_goals
        obtain ⟨rfl, rfl⟩ := moves
        exact .moved rfl ran

theorem carries_made {carriers : CarrierSet} {yarns : List Yarn} {call : Call}
    (makes : call.move? = some (.makeLoop carriers))
    (feeds : machine.carriers.makeLoop carriers = .ok (yarns, next.carriers)) :
    machine.Carries call next := by
  refine .moved makes ?_
  simp only [Move.act, bind_eq_ok, pure_eq_ok]
  exact ⟨_, feeds, rfl⟩

theorem carriers_straightened (needles : List Needle) :
    (machine.straightened needles).carriers = machine.carriers := by
  rw [straightened]
  split <;> rfl

theorem Effect.carries (shaped : machine.Shaped) {call : Call} {lines : List Line}
    (effect : Effect machine call lines next) : machine.Carries call next := by
  cases effect with
  | retuned tuning => exact tuning.carries
  | @regauged number _ =>
      refine .still rfl ?_
      rw [Machine.regauged]
      split <;> rfl
  | recorded _ => exact .still rfl rfl
  | knitted _ feeds => exact carries_made rfl feeds
  | tucked _ feeds => exact carries_made rfl feeds
  | splitted _ feeds => exact carries_made rfl feeds
  | @dropped needle _ => exact .still rfl (carriers_put needle [])
  | @transferred start target _ => exact .still rfl (carriers_moved start target)
  | @peeled _ plan _ _ peels fits _ =>
      refine .still peels.move ?_
      exact peeled_preserves (fun current => current.carriers = machine.carriers)
        (fun current needle _ _ _ same => (carriers_moved needle needle.opposite).trans same)
        shaped fits (carriers_straightened plan.moves)
  | restored resets fits planned _ =>
      refine .still resets.move ?_
      exact restored_preserves (fun current => current.carriers = machine.carriers)
        (fun current needle _ _ _ same => (carriers_moved needle needle.opposite).trans same)
        (fun current start _ _ _ same => (carriers_moved start start.opposite).trans same)
        shaped fits planned (carriers_straightened _)

end Machine

end VBed
