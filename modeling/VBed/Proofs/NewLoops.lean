import Mathlib.Data.List.Nodup
import VBed.Proofs.Record
import VBed.Proofs.Refusals
import VBed.Proofs.Yarns

/-!
What knitting and tucking make. Both add one loop for each carrier, in order, to the graph and to
one needle. They differ in what becomes of the loops that the needle held: a tuck keeps them, and a
knit pulls every new loop through all of them.
-/

namespace VBed

def Side.pull : Side → Pull
  | .front => .frontToBack
  | .back => .backToFront

namespace CarrierSystem

variable {system next : CarrierSystem}

def yarn? (system : CarrierSystem) (id : CarrierId) : Option Yarn :=
  (system.carrier? id).map (·.yarn)

theorem yarn?_put_countLoop {id : CarrierId} {carrier : Carrier}
    (found : system.carrier? id = some carrier) (other : CarrierId) :
    (system.put id carrier.countLoop).yarn? other = system.yarn? other := by
  rw [yarn?, carrier?_put found]
  split
  · rename_i here
    rw [yarn?, ← here, found]
    rfl
  · rfl

theorem feedAll_yarns {carriers : CarrierSet} {yarns : List Yarn}
    (fed : system.feedAll carriers = .ok (yarns, next)) :
    carriers.map system.yarn? = yarns.map some ∧
      next = { system with carriers := next.carriers } := by
  induction carriers generalizing system yarns with
  | nil =>
      simp only [feedAll, Except.ok.injEq, Prod.mk.injEq] at fed
      obtain ⟨rfl, rfl⟩ := fed
      exact ⟨rfl, rfl⟩
  | cons id rest ih =>
      simp only [feedAll, bind_eq_ok] at fed
      obtain ⟨⟨yarn, middle⟩, first, ⟨others, last⟩, later, same⟩ := fed
      obtain ⟨carrier, found, rfl, rfl⟩ := feed_eq_ok.mp first
      simp only [pure_eq_ok, Prod.mk.injEq] at same
      obtain ⟨rfl, rfl⟩ := same
      obtain ⟨inOrder, kept⟩ := ih later
      have sameYarns : (system.put id carrier.countLoop).yarn? = system.yarn? :=
        funext (yarn?_put_countLoop found)
      rw [sameYarns] at inOrder
      have here : system.yarn? id = some carrier.yarn := by rw [yarn?, found, Option.map_some]
      rw [List.map_cons, List.map_cons, inOrder, here]
      exact ⟨rfl, kept⟩

theorem length_of_feedAll {carriers : CarrierSet} {yarns : List Yarn}
    (fed : system.feedAll carriers = .ok (yarns, next)) : yarns.length = carriers.length := by
  have lengths := congrArg List.length (feedAll_yarns fed).1
  rwa [List.length_map, List.length_map, eq_comm] at lengths

theorem yarn_of_feedAll {carriers : CarrierSet} {yarns : List Yarn}
    (fed : system.feedAll carriers = .ok (yarns, next)) {index : Nat} {id : CarrierId}
    (here : carriers[index]? = some id) {carrier : Carrier}
    (found : system.carrier? id = some carrier) : yarns[index]? = some carrier.yarn := by
  have sameYarn := congrArg (·[index]?) (feedAll_yarns fed).1
  simp only [List.getElem?_map, here, Option.map_some, yarn?, found] at sameYarn
  obtain ⟨yarn, atIndex, same⟩ := Option.map_eq_some_iff.mp sameYarn.symm
  rw [atIndex, same]

end CarrierSystem

namespace StitchGraph

variable {graph : StitchGraph} {parents : List LoopId} {pull : Pull}

theorem nextLoops_succ (parents : List LoopId) (pull : Pull) (yarn : Yarn) (count : Nat) :
    graph.nextLoops (count + 1) =
      graph.next :: (graph.added parents pull yarn).nextLoops count := by
  rw [nextLoops, nextLoops, loopCount_added, List.range'_succ, List.map_cons]
  rfl

theorem threads_of_parent (once : parents.Nodup) (pull : Pull) (id : LoopId) :
    (graph.threads parents pull).filter (·.parent = id) =
      if id ∈ parents then [⟨id, graph.next, pull⟩] else [] := by
  rw [threads, List.filter_map]
  change (parents.filter fun parent => decide (parent = id)).map _ = _
  rw [List.filter_eq]
  split
  · rename_i isParent
    rw [List.count_eq_one_of_mem once isParent]
    rfl
  · rename_i notParent
    rw [List.count_eq_zero.mpr notParent]
    rfl

theorem loop?_grown_old (once : parents.Nodup) (yarns : List Yarn) {id : LoopId}
    (known : id.index < graph.loopCount) :
    (graph.grown parents pull yarns).loop? id =
      (graph.loop? id).map fun loop =>
        { loop with
          children := loop.children ++
            if id ∈ parents then (graph.nextLoops yarns.length).map (⟨id, ·, pull⟩) else [] } := by
  induction yarns generalizing graph with
  | nil => simp [grown, nextLoops]
  | cons yarn rest ih =>
      have differs : id ≠ graph.next := fun same => Nat.ne_of_lt known (eq_next_iff.mp same)
      have stillKnown : id.index < (graph.added parents pull yarn).loopCount := by
        rw [loopCount_added]
        exact Nat.lt_succ_of_lt known
      have later := ih stillKnown
      rw [grown_cons, later, loop?_added, if_neg differs, threads_of_parent once, List.length_cons,
        nextLoops_succ parents pull yarn, Option.map_map]
      congr 1
      funext loop
      by_cases isParent : id ∈ parents <;> simp [isParent]

/-- Each new loop is made from its yarn, behind some loop of that yarn, and pulled through all
parents. -/
theorem loop?_grown_new (once : parents.Nodup)
    (known : ∀ parent ∈ parents, parent.index < graph.loopCount) (pull : Pull) {yarns : List Yarn}
    {index : Nat} {yarn : Yarn} (here : yarns[index]? = some yarn) :
    ∃ prior, (graph.grown parents pull yarns).loop? ⟨graph.loopCount + index⟩ =
      some ⟨⟨graph.loopCount + index⟩, yarn, prior,
        parents.map (⟨·, ⟨graph.loopCount + index⟩, pull⟩), []⟩ := by
  induction yarns generalizing graph index with
  | nil => simp at here
  | cons first rest ih =>
      rw [grown_cons]
      cases index with
      | zero =>
          simp only [List.getElem?_cons_zero, Option.some.injEq] at here
          subst here
          have notParent : graph.next ∉ parents := fun member =>
            Nat.lt_irrefl _ (known graph.next member)
          have bound : graph.next.index < (graph.added parents pull first).loopCount := by
            rw [loopCount_added]
            exact Nat.lt_succ_self _
          refine ⟨graph.last? first, ?_⟩
          change ((graph.added parents pull first).grown parents pull rest).loop? graph.next = _
          rw [loop?_grown_old once rest bound, loop?_added, if_pos rfl, Option.map_some,
            threads_of_parent once, if_neg notParent, if_neg notParent, List.append_nil]
          rfl
      | succ index =>
          rw [List.getElem?_cons_succ] at here
          have stillKnown : ∀ parent ∈ parents,
              parent.index < (graph.added parents pull first).loopCount := by
            intro parent member
            rw [loopCount_added]
            exact Nat.lt_succ_of_lt (known parent member)
          obtain ⟨prior, found⟩ := ih stillKnown here
          rw [loopCount_added, Nat.add_assoc, Nat.add_comm 1 index] at found
          exact ⟨prior, found⟩

theorem yarnLoops_grown (ordered : Ordered graph.yarns) (parents : List LoopId) (pull : Pull)
    (yarns : List Yarn) (yarn : Yarn) :
    ((graph.grown parents pull yarns).yarnLoops yarn).toList =
      (graph.yarnLoops yarn).toList ++
        (((graph.nextLoops yarns.length).zip (yarns.map some)).filter (·.2 = some yarn)).map
          (·.1) := by
  induction yarns generalizing graph with
  | nil => simp [grown]
  | cons first rest ih =>
      have nextOrdered : Ordered (graph.added parents pull first).yarns := by
        rw [yarns_added]
        exact ordered_appendToYarn first graph.next ordered
      rw [grown_cons, ih nextOrdered, yarnLoops_added ordered, List.length_cons,
        nextLoops_succ parents pull first, List.map_cons, List.zip_cons_cons]
      by_cases same : yarn = first
      · subst same
        simp
      · simp [same, Ne.symm same]

structure LastBefore (graph : StitchGraph) (yarn : Yarn) (id before : LoopId) : Prop where
  earlier : before.index < id.index
  sameYarn : ∃ loop, graph.loop? before = some loop ∧ loop.yarn = yarn
  last : ∀ other loop, graph.loop? other = some loop → loop.yarn = yarn →
    other.index < id.index → other.index ≤ before.index

theorem Threaded.mem_of_yarn (threaded : graph.Threaded) {id : LoopId} {loop : Loop}
    (found : graph.loop? id = some loop) : id ∈ graph.yarnLoops loop.yarn :=
  threaded.listed id loop.yarn loop.prior (strand?_eq_some.mpr ⟨loop, found, rfl⟩)

theorem Threaded.index_lt_iff (threaded : graph.Threaded) {yarn : Yarn} {first second : Nat}
    {left right : LoopId} (atFirst : (graph.yarnLoops yarn)[first]? = some left)
    (atSecond : (graph.yarnLoops yarn)[second]? = some right) :
    left.index < right.index ↔ first < second := by
  rw [← Array.getElem?_toList] at atFirst atSecond
  obtain ⟨firstInRange, rfl⟩ := List.getElem?_eq_some_iff.mp atFirst
  obtain ⟨secondInRange, rfl⟩ := List.getElem?_eq_some_iff.mp atSecond
  have increasing := List.pairwise_iff_getElem.mp (threaded.increasing yarn)
  constructor
  · intro lower
    rcases Nat.lt_trichotomy first second with before | same | behind
    · exact before
    · subst same
      exact absurd lower (Nat.lt_irrefl _)
    · exact absurd (increasing second first secondInRange firstInRange behind) (Nat.lt_asymm lower)
  · exact increasing first second firstInRange secondInRange

theorem Threaded.prior_iff (threaded : graph.Threaded) {id : LoopId} {loop : Loop}
    (found : graph.loop? id = some loop) (before : LoopId) :
    loop.prior = some before ↔ graph.LastBefore loop.yarn id before := by
  obtain ⟨position, here⟩ := Array.mem_iff_getElem?.mp (threaded.mem_of_yarn found)
  have strand := threaded.prior loop.yarn position id here
  rw [strand?_eq_some.mpr ⟨loop, found, rfl⟩, Option.some.injEq, Prod.mk.injEq] at strand
  rw [strand.2]
  constructor
  · intro prior
    by_cases start : position = 0
    · simp [start] at prior
    · rw [if_neg start] at prior
      obtain ⟨loop', foundBefore, same⟩ :=
        strand?_eq_some.mp (threaded.prior loop.yarn (position - 1) before prior)
      refine ⟨(threaded.index_lt_iff prior here).mpr (by omega),
        ⟨loop', foundBefore, congrArg Prod.fst same⟩, ?_⟩
      intro other otherLoop foundOther sameYarn lower
      have member := threaded.mem_of_yarn foundOther
      rw [sameYarn] at member
      obtain ⟨place, there⟩ := Array.mem_iff_getElem?.mp member
      have earlier := (threaded.index_lt_iff there here).mp lower
      refine Nat.le_of_not_lt fun higher => ?_
      have later := (threaded.index_lt_iff prior there).mp higher
      omega
  · rintro ⟨earlier, ⟨loop', foundBefore, sameYarn⟩, last⟩
    have member := threaded.mem_of_yarn foundBefore
    rw [sameYarn] at member
    obtain ⟨place, there⟩ := Array.mem_iff_getElem?.mp member
    have lower := (threaded.index_lt_iff there here).mp earlier
    have start : position ≠ 0 := by omega
    -- The loop that stands just before in the yarn is neither earlier nor later than the last one.
    have inRange : position < (graph.yarnLoops loop.yarn).size :=
      (Array.getElem?_eq_some_iff.mp here).1
    have just : (graph.yarnLoops loop.yarn)[position - 1]? =
        some (graph.yarnLoops loop.yarn)[position - 1] := Array.getElem?_eq_getElem (by omega)
    obtain ⟨justLoop, foundJust, same⟩ :=
      strand?_eq_some.mp (threaded.prior loop.yarn (position - 1) _ just)
    have notLater := last _ justLoop foundJust (congrArg Prod.fst same)
      ((threaded.index_lt_iff just here).mpr (by omega))
    have notEarlier : ¬place < position - 1 := fun behind =>
      Nat.not_lt_of_le notLater ((threaded.index_lt_iff there just).mpr behind)
    have same : place = position - 1 := by omega
    rw [if_neg start, ← same, there]

end StitchGraph

namespace Machine

variable {machine next : Machine} {needle : Needle} {carriers : CarrierSet}

structure Counted (machine : Machine) : Prop where
  word : ∀ id carrier, machine.carriers.carrier? id = some carrier →
    carrier.loopsSinceRelease < Text.wordCount
  made : ∀ id carrier, machine.carriers.carrier? id = some carrier →
    carrier.loopsSinceRelease ≤ machine.graph.loopCount

theorem loopCount_fed {system fed : CarrierSystem} {yarns : List Yarn}
    (feeds : system.makeLoop carriers = .ok (yarns, fed)) (graph : StitchGraph)
    (parents : List LoopId) (pull : Pull) :
    (graph.grown parents pull yarns).loopCount = graph.loopCount + carriers.length := by
  rw [StitchGraph.loopCount_grown,
    CarrierSystem.length_of_feedAll (CarrierSystem.makeLoop_eq_ok.mp feeds).2]

theorem Tuning.makesNone {operation : Operation} {lines : List Line}
    (tuning : Tuning machine operation lines next) :
    (Call.apply operation).makesLoops = false := by
  cases tuning with
  | unseen silent _ _ => cases operation <;> first | rfl | cases silent
  | racked racks _ => cases operation <;> first | rfl | cases racks
  | carried moves _ => cases operation <;> first | rfl | cases moves

theorem loopsWith_eq_zero {call : Call} (makesNone : call.makesLoops = false) {move : Move}
    (moves : call.move? = some move) (id : CarrierId) : move.loopsWith id = 0 := by
  cases call with
  | record position => cases moves
  | apply operation => cases operation <;> cases moves <;> first | rfl | cases makesNone

theorem Effect.loopsWith_le (sound : machine.Sound) {call : Call} {lines : List Line}
    (effect : Effect machine call lines next) {move : Move} (moves : call.move? = some move)
    (id : CarrierId) : machine.graph.loopCount + move.loopsWith id ≤ next.graph.loopCount := by
  have count := (effect.evolved sound).count
  have made : ∀ {carriers : CarrierSet} {yarns : List Yarn} {fed : CarrierSystem}
      (graph : StitchGraph) (parents : List LoopId) (pull : Pull),
      machine.carriers.makeLoop carriers = .ok (yarns, fed) →
        graph.loopCount + carriers.count id ≤ (graph.grown parents pull yarns).loopCount := by
    intro carriers yarns fed graph parents pull feeds
    rw [loopCount_fed feeds]
    exact Nat.add_le_add_left List.count_le_length _
  cases effect with
  | retuned tuning =>
      rw [loopsWith_eq_zero tuning.makesNone moves]
      exact count
  | knitted _ feeds =>
      cases moves
      exact made _ _ _ feeds
  | tucked _ feeds =>
      cases moves
      exact made _ _ _ feeds
  | @splitted start target _ _ _ _ _ feeds =>
      cases moves
      have graph : (machine.transferred start target).graph = machine.graph :=
        graph_moved start target
      rw [← graph]
      exact made _ _ _ feeds
  | peeled peels _ _ =>
      rw [peels.move] at moves
      cases moves
  | restored resets _ _ _ =>
      rw [resets.move] at moves
      cases moves
  | _ => cases moves

theorem Effect.counted (sound : machine.Sound) (counted : machine.Counted) {call : Call}
    {lines : List Line} (effect : Effect machine call lines next) : next.Counted := by
  have step : ∀ id after, next.carriers.carrier? id = some after →
      after.loopsSinceRelease < Text.wordCount ∧
        after.loopsSinceRelease ≤ next.graph.loopCount := by
    intro id after found
    cases effect.carries sound.shaped with
    | still _ same =>
        rw [same] at found
        exact ⟨counted.word id after found,
          Nat.le_trans (counted.made id after found) (effect.evolved sound).count⟩
    | @moved move moves ran =>
        rw [(CarrierSystem.act_moved ran).carrier] at found
        obtain ⟨before, foundBefore, rfl⟩ := Option.map_eq_some_iff.mp found
        have word := counted.word id before foundBefore
        have made := counted.made id before foundBefore
        have grows := effect.loopsWith_le sound moves id
        have positive : 0 < Text.wordCount := by decide
        rw [Move.loopsSinceRelease_changed]
        split
        · exact ⟨positive, Nat.zero_le _⟩
        · split
          · exact ⟨word, by omega⟩
          · exact ⟨Nat.mod_lt _ positive, Nat.le_trans (Nat.mod_le _ _) (by omega)⟩
  exact ⟨fun id after found => (step id after found).1,
    fun id after found => (step id after found).2⟩

theorem Reachable.counted (reachable : machine.Reachable) : machine.Counted := by
  refine reachable.preserves (fun spec => ?_) fun sound effect counted =>
    effect.counted sound counted
  constructor
  · intro id carrier found
    rw [CarrierSystem.parked_of_carrier? found]
    exact (by decide : 0 < Text.wordCount)
  · intro id carrier found
    rw [CarrierSystem.parked_of_carrier? found]
    exact Nat.zero_le _

theorem Reachable.threaded (reachable : machine.Reachable) : machine.graph.Threaded :=
  reachable.preserves (fun _ => StitchGraph.threaded_empty) fun sound effect threaded =>
    (effect.growth sound).threaded threaded

structure CanMake (machine : Machine) (needle : Needle) (carriers : CarrierSet) : Prop where
  inRange : needle.position < machine.needleCount
  ordinary : needle.slider = false
  clear : ∀ other : Needle, other.slider = true → machine.loops other = []
  inService : ∀ id ∈ carriers, ∃ carrier, machine.carriers.carrier id = .ok carrier ∧
    carrier.active = true

theorem checkMaking_iff (shaped : machine.Shaped) (work : Work) :
    machine.checkMaking work needle carriers = .ok () ↔ machine.CanMake needle carriers := by
  rw [checkMaking_eq_ok shaped, slidersAreClear_iff, CarrierSystem.checkInService_eq_ok]
  simp only [← CarrierSystem.carrier_eq_ok]
  constructor
  · rintro ⟨inRange, ordinary, clear, inService⟩
    exact ⟨inRange, ordinary, clear, inService⟩
  · rintro ⟨inRange, ordinary, clear, inService⟩
    exact ⟨inRange, ordinary, clear, inService⟩

/-- Carriers make new loops on a needle, behind those that it keeps and pulled through all parents.
Everything that this does not change is as before. -/
structure Makes (machine next : Machine) (needle : Needle) (carriers : CarrierSet)
    (made kept parents : List LoopId) : Prop where
  ids : made = (List.range' machine.graph.loopCount carriers.length).map LoopId.mk
  here : next.loops needle = kept ++ made
  others : ∀ other, other ≠ needle → next.loops other = machine.loops other
  loopCount : next.graph.loopCount = machine.graph.loopCount + carriers.length
  new : ∀ index id, carriers[index]? = some id → ∃ carrier loop,
    machine.carriers.carrier id = .ok carrier ∧
      next.graph.loop? ⟨machine.graph.loopCount + index⟩ = some loop ∧
      loop.id = ⟨machine.graph.loopCount + index⟩ ∧ loop.yarn = carrier.yarn ∧
      (∀ before, loop.prior = some before ↔ next.graph.LastBefore loop.yarn loop.id before) ∧
      loop.parents = parents.map (⟨·, loop.id, needle.side.pull⟩) ∧ loop.children = []
  old : ∀ id : LoopId, id.index < machine.graph.loopCount →
    next.graph.loop? id = (machine.graph.loop? id).map fun loop =>
      { loop with
        children := loop.children ++
          if id ∈ parents then made.map (⟨id, ·, needle.side.pull⟩) else [] }
  yarnLoops : ∀ yarn, (next.graph.yarnLoops yarn).toList =
    (machine.graph.yarnLoops yarn).toList ++
      ((made.zip (carriers.map machine.carriers.yarn?)).filter (·.2 = some yarn)).map (·.1)
  counts : ∀ id carrier, machine.carriers.carrier id = .ok carrier → ∃ count,
    next.carriers.carrier id = .ok { carrier with loopsSinceRelease := count } ∧
      count = (carrier.loopsSinceRelease + carriers.count id) % Text.wordCount ∧
      (next.graph.loopCount < Text.wordCount →
        count = carrier.loopsSinceRelease + carriers.count id)
  carriers : next.carriers = { machine.carriers with carriers := next.carriers.carriers }
  carrierCount : next.carriers.count = machine.carriers.count
  recorded : next.recordAt needle.position = .ok (next.presence needle.position)
  record : next.record =
    machine.record.setIfInBounds needle.position (next.presence needle.position)
  rest : next = { machine with
    frontBed := next.frontBed, backBed := next.backBed, carriers := next.carriers,
    graph := next.graph, record := next.record }

theorem pull_bed (shaped : machine.Shaped) (side : Side) : (machine.bed side).pull = side.pull := by
  rw [Bed.pull, shaped.side]
  rfl

theorem count_fed (counted : machine.Counted) {yarns : List Yarn} {fed : CarrierSystem}
    (feeds : machine.carriers.makeLoop carriers = .ok (yarns, fed)) {id : CarrierId}
    {carrier : Carrier} (found : machine.carriers.carrier id = .ok carrier) :
    ∃ count, fed.carrier id = .ok { carrier with loopsSinceRelease := count } ∧
      count = (carrier.loopsSinceRelease + carriers.count id) % Text.wordCount ∧
      (machine.graph.loopCount + carriers.length < Text.wordCount →
        count = carrier.loopsSinceRelease + carriers.count id) := by
  rw [CarrierSystem.carrier_eq_ok] at found
  have moved := (CarrierSystem.feedAll_facts (CarrierSystem.makeLoop_eq_ok.mp feeds).2).1
  have word := counted.word id carrier found
  have made := counted.made id carrier found
  have limit : carriers.count id ≤ carriers.length := List.count_le_length
  refine ⟨_, ?_, rfl, fun fits => Nat.mod_eq_of_lt (by omega)⟩
  rw [CarrierSystem.carrier_eq_ok, moved.carrier, found, Option.map_some, Move.changed,
    Carrier.countLoops]
  split
  · rename_i unfed
    rw [unfed, Nat.add_zero, Nat.mod_eq_of_lt word]
  · rfl

theorem makes_made (reachable : machine.Reachable) (canMake : machine.CanMake needle carriers)
    {yarns : List Yarn} {fed : CarrierSystem}
    (feeds : machine.carriers.makeLoop carriers = .ok (yarns, fed)) {kept parents : List LoopId}
    (parts : kept ++ parents = machine.loops needle) :
    machine.Makes ((machine.made needle fed yarns kept parents).recorded needle.position) needle
      carriers (machine.graph.nextLoops yarns.length) kept parents := by
  have sound := reachable.sound
  have shaped := sound.shaped
  have inRange := canMake.inRange
  have fedAll := (CarrierSystem.makeLoop_eq_ok.mp feeds).2
  obtain ⟨inOrder, sameHook⟩ := CarrierSystem.feedAll_yarns fedAll
  have moved := (CarrierSystem.feedAll_facts fedAll).1
  obtain ⟨once, held, _⟩ := sound.parted parts
  have known : ∀ parent ∈ parents, parent.index < machine.graph.loopCount :=
    fun parent member => sound.bound ⟨needle, held parent member⟩
  have threaded := reachable.threaded.grown parents needle.side.pull yarns
  have madeShaped := shaped.made needle fed yarns kept parents
  have loops := loops_made shaped inRange fed yarns kept parents
  have graph : ((machine.made needle fed yarns kept parents).recorded needle.position).graph =
      machine.graph.grown parents needle.side.pull yarns := by
    rw [← pull_bed shaped]
    rfl
  constructor
  · rw [CarrierSystem.length_of_feedAll fedAll]
    rfl
  · rw [loops_recorded, loops, if_pos rfl]
  · intro other differs
    rw [loops_recorded, loops, if_neg differs]
  · rw [graph, loopCount_fed feeds]
  · intro index id here
    obtain ⟨carrier, found, _⟩ := canMake.inService id (List.mem_of_getElem? here)
    have fromCarrier := CarrierSystem.yarn_of_feedAll fedAll here
      (CarrierSystem.carrier_eq_ok.mp found)
    obtain ⟨prior, new⟩ := StitchGraph.loop?_grown_new once known needle.side.pull fromCarrier
    rw [graph]
    exact ⟨carrier, _, found, new, rfl, rfl, threaded.prior_iff new, rfl, rfl⟩
  · intro id old
    rw [graph]
    exact StitchGraph.loop?_grown_old once yarns old
  · intro yarn
    rw [graph, inOrder]
    exact StitchGraph.yarnLoops_grown reachable.threaded.ordered parents needle.side.pull yarns yarn
  · intro id carrier found
    rw [graph, loopCount_fed feeds]
    exact count_fed reachable.counted feeds found
  · exact sameHook
  · exact moved.count
  · rw [recordAt_ok (by simpa using inRange), onRecord_recorded madeShaped (by simpa using inRange),
      if_pos rfl, presence_recorded]
  · change (machine.put needle _).record.setIfInBounds _ _ = _
    rw [record_put]
    rfl
  · obtain ⟨side, position, slider⟩ := needle
    cases side <;> rfl

/-- What knitting and tucking make, and when they can. A knit pulls the new loops through those that
its needle held, and a tuck lays them over those. -/
structure KnitsAndTucks (machine : Machine) : Prop where
  knits : ∀ needle carriers, (∃ made next, knit needle carriers machine = .ok made next) ↔
    machine.CanMake needle carriers
  tucks : ∀ needle carriers, (∃ made next, tuck needle carriers machine = .ok made next) ↔
    machine.CanMake needle carriers
  knitted : ∀ needle carriers made next, knit needle carriers machine = .ok made next →
    machine.Makes next needle carriers made [] (machine.loops needle)
  tucked : ∀ needle carriers made next, tuck needle carriers machine = .ok made next →
    machine.Makes next needle carriers made (machine.loops needle) []

theorem knitsAndTucks_of_reachable (reachable : machine.Reachable) : machine.KnitsAndTucks := by
  have shaped := reachable.sound.shaped
  have known := reachable.sound.known
  constructor
  · intro needle carriers
    rw [← checkMaking_iff shaped .knit]
    constructor
    · rintro ⟨made, next, ran⟩
      exact (decided_knit shaped known needle carriers).passed ran
    · intro checked
      obtain ⟨_, _, _, _, ran⟩ := knit_done shaped known checked
      exact ⟨_, _, ran⟩
  · intro needle carriers
    rw [← checkMaking_iff shaped .tuck]
    constructor
    · rintro ⟨made, next, ran⟩
      exact (decided_tuck shaped needle carriers).passed ran
    · intro checked
      obtain ⟨_, _, _, _, ran⟩ := tuck_done shaped checked
      exact ⟨_, _, ran⟩
  · intro needle carriers made next ran
    have checked := (decided_knit shaped known needle carriers).passed ran
    obtain ⟨yarns, fed, feeds, _, done⟩ := knit_done shaped known checked
    rw [done] at ran
    cases ran
    exact makes_made reachable ((checkMaking_iff shaped .knit).mp checked) feeds
      (List.nil_append _)
  · intro needle carriers made next ran
    have checked := (decided_tuck shaped needle carriers).passed ran
    obtain ⟨yarns, fed, feeds, _, done⟩ := tuck_done shaped checked
    rw [done] at ran
    cases ran
    exact makes_made reachable ((checkMaking_iff shaped .tuck).mp checked) feeds
      (List.append_nil _)

theorem knitsAndTucks_plated :
    let machine := (initial twoNeedles).afterAll [.apply (.inhook ⟨1⟩),
      .apply (.tuck (.back 0) [⟨1⟩, ⟨1⟩] none)]
    let knitted := machine.afterAll [.apply (.knit (.back 0) [⟨1⟩, ⟨1⟩] none)]
    knitted.loops (.back 0) = [⟨2⟩, ⟨3⟩] ∧
      knitted.graph.loop? ⟨3⟩ = some ⟨⟨3⟩, ⟨⟨1⟩, 0⟩, some ⟨2⟩,
        [⟨⟨0⟩, ⟨3⟩, .backToFront⟩, ⟨⟨1⟩, ⟨3⟩, .backToFront⟩], []⟩ ∧
      machine.KnitsAndTucks :=
  ⟨by decide +kernel, by decide +kernel, knitsAndTucks_of_reachable (reachable_twoNeedles _)⟩

end Machine

end VBed
