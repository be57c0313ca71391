import Mathlib.Data.List.Nodup
import Mathlib.Logic.Relation
import VBed.Proofs.Growth

/-!
The stitches of a graph. Each stitch is kept twice, with the loop that is its child and with the
loop that is its parent; both tell the same. Loops are pulled through loops that were made before
them and that no longer hang on a needle, so that no loop is pulled through by more than one knit.
-/

namespace VBed

namespace StitchGraph

variable {graph : StitchGraph} {parents : List LoopId} {pull : Pull}

def parentsOf (graph : StitchGraph) (id : LoopId) : List LoopId :=
  (graph.stitches.filter (·.child = id)).map (·.parent)

structure WellFormed (graph : StitchGraph) : Prop where
  id : ∀ id loop, graph.loop? id = some loop → loop.id = id
  parents : ∀ id loop, graph.loop? id = some loop →
    loop.parents = graph.stitches.filter (·.child = id)
  children : ∀ id loop, graph.loop? id = some loop →
    loop.children = graph.stitches.filter (·.parent = id)
  below : ∀ stitch ∈ graph.stitches,
    stitch.parent.index < stitch.child.index ∧ stitch.child.index < graph.loopCount
  once : graph.stitches.Nodup
  shared : ∀ first ∈ graph.stitches, ∀ second ∈ graph.stitches, first.parent = second.parent →
    first.pull = second.pull ∧ graph.parentsOf first.child = graph.parentsOf second.child

/-- Loops can be pulled through the parents: they are loops of the graph, and whatever is pulled
through one of them already is pulled through all of them in the same way. -/
structure Ready (graph : StitchGraph) (parents : List LoopId) (pull : Pull) : Prop where
  once : parents.Nodup
  known : ∀ parent ∈ parents, parent.index < graph.loopCount
  taken : ∀ stitch ∈ graph.stitches, stitch.parent ∈ parents →
    stitch.pull = pull ∧ graph.parentsOf stitch.child = parents

theorem nodup_threads (once : parents.Nodup) : (graph.threads parents pull).Nodup :=
  once.map fun _ _ same => congrArg Stitch.parent same

theorem parent_threads : (graph.threads parents pull).map (·.parent) = parents := by
  rw [threads, List.map_map]
  exact List.map_id parents

theorem WellFormed.child_ne_next (wellFormed : graph.WellFormed) {stitch : Stitch}
    (member : stitch ∈ graph.stitches) : stitch.child ≠ graph.next := by
  intro same
  have below := (wellFormed.below stitch member).2
  rw [eq_next_iff.mp same] at below
  omega

theorem WellFormed.parent_ne_next (wellFormed : graph.WellFormed) {stitch : Stitch}
    (member : stitch ∈ graph.stitches) : stitch.parent ≠ graph.next := by
  intro same
  have below := wellFormed.below stitch member
  rw [eq_next_iff.mp same] at below
  omega

theorem WellFormed.none_of_child (wellFormed : graph.WellFormed) :
    graph.stitches.filter (·.child = graph.next) = [] := by
  rw [List.filter_eq_nil_iff]
  intro stitch member
  simpa using wellFormed.child_ne_next member

theorem WellFormed.none_of_parent (wellFormed : graph.WellFormed) :
    graph.stitches.filter (·.parent = graph.next) = [] := by
  rw [List.filter_eq_nil_iff]
  intro stitch member
  simpa using wellFormed.parent_ne_next member

theorem WellFormed.parentsOf_added (wellFormed : graph.WellFormed) (yarn : Yarn) (id : LoopId) :
    (graph.added parents pull yarn).parentsOf id =
      if id = graph.next then parents else graph.parentsOf id := by
  rw [parentsOf, stitches_added, List.filter_append, threads_of_child]
  split
  · rename_i new
    rw [new, wellFormed.none_of_child, List.nil_append, parent_threads]
  · rw [List.append_nil, parentsOf]

theorem Ready.added (ready : graph.Ready parents pull) (wellFormed : graph.WellFormed)
    (yarn : Yarn) : (graph.added parents pull yarn).Ready parents pull where
  once := ready.once
  known parent member := by
    rw [loopCount_added]
    exact Nat.lt_succ_of_lt (ready.known parent member)
  taken stitch member isParent := by
    rw [wellFormed.parentsOf_added]
    rw [stitches_added, List.mem_append] at member
    rcases member with old | new
    · rw [if_neg (wellFormed.child_ne_next old)]
      exact ready.taken stitch old isParent
    · obtain ⟨_, child, sameWay⟩ := child_of_threads new
      rw [if_pos child]
      exact ⟨sameWay, rfl⟩

theorem WellFormed.added (wellFormed : graph.WellFormed) (ready : graph.Ready parents pull)
    (yarn : Yarn) : (graph.added parents pull yarn).WellFormed := by
  have readyNext := ready.added wellFormed yarn
  constructor
  · intro id loop found
    rw [loop?_added] at found
    split at found
    · rename_i new
      cases found
      exact new.symm
    · obtain ⟨before, foundBefore, rfl⟩ := Option.map_eq_some_iff.mp found
      exact wellFormed.id id before foundBefore
  · intro id loop found
    rw [loop?_added] at found
    rw [stitches_added, List.filter_append, threads_of_child]
    split at found
    · rename_i new
      cases found
      rw [if_pos new, new, wellFormed.none_of_child, List.nil_append]
    · rename_i old
      obtain ⟨before, foundBefore, rfl⟩ := Option.map_eq_some_iff.mp found
      rw [if_neg old, List.append_nil]
      exact wellFormed.parents id before foundBefore
  · intro id loop found
    rw [loop?_added] at found
    rw [stitches_added, List.filter_append]
    split at found
    · rename_i new
      cases found
      rw [new, wellFormed.none_of_parent, List.nil_append]
    · obtain ⟨before, foundBefore, rfl⟩ := Option.map_eq_some_iff.mp found
      rw [← wellFormed.children id before foundBefore]
  · intro stitch member
    rw [stitches_added, List.mem_append] at member
    rw [loopCount_added]
    rcases member with old | new
    · have below := wellFormed.below stitch old
      omega
    · obtain ⟨isParent, child, _⟩ := child_of_threads new
      have known := ready.known _ isParent
      have index := eq_next_iff.mp child
      omega
  · rw [stitches_added]
    refine List.nodup_append.mpr ⟨wellFormed.once, nodup_threads ready.once, ?_⟩
    rintro stitch old other new rfl
    exact wellFormed.child_ne_next old (child_of_threads new).2.1
  · intro first firstMember second secondMember same
    by_cases taken : first.parent ∈ parents
    · obtain ⟨firstPull, firstParents⟩ := readyNext.taken first firstMember taken
      obtain ⟨secondPull, secondParents⟩ := readyNext.taken second secondMember (same ▸ taken)
      rw [firstPull, firstParents, secondPull, secondParents]
      exact ⟨rfl, rfl⟩
    · -- Only stitches to the parents are new.
      have old : ∀ stitch ∈ (graph.added parents pull yarn).stitches,
          stitch.parent ∉ parents → stitch ∈ graph.stitches := by
        intro stitch member notParent
        rw [stitches_added, List.mem_append] at member
        exact member.resolve_right fun new => notParent (child_of_threads new).1
      have firstOld := old first firstMember taken
      have secondOld := old second secondMember (same ▸ taken)
      rw [wellFormed.parentsOf_added, wellFormed.parentsOf_added,
        if_neg (wellFormed.child_ne_next firstOld), if_neg (wellFormed.child_ne_next secondOld)]
      exact wellFormed.shared first firstOld second secondOld same

structure Pulling (graph : StitchGraph) (parents : List LoopId) (pull : Pull)
    (current : StitchGraph) : Prop where
  wellFormed : current.WellFormed
  ready : current.Ready parents pull
  origin : ∀ stitch ∈ current.stitches, stitch ∈ graph.stitches ∨ stitch.parent ∈ parents

theorem Pulling.added {current : StitchGraph} (pulling : graph.Pulling parents pull current)
    (yarn : Yarn) : graph.Pulling parents pull (current.added parents pull yarn) where
  wellFormed := pulling.wellFormed.added pulling.ready yarn
  ready := pulling.ready.added pulling.wellFormed yarn
  origin stitch member := by
    rw [stitches_added, List.mem_append] at member
    rcases member with old | new
    · exact pulling.origin stitch old
    · exact Or.inr (child_of_threads new).1

theorem WellFormed.grown (wellFormed : graph.WellFormed) (ready : graph.Ready parents pull)
    (yarns : List Yarn) : graph.Pulling parents pull (graph.grown parents pull yarns) :=
  grown_preserves (graph.Pulling parents pull) (fun _ yarn _ pulling => pulling.added yarn)
    ⟨wellFormed, ready, fun _ => Or.inl⟩

def Pulled (graph : StitchGraph) (parent child : LoopId) : Prop :=
  ∃ loop, graph.loop? child = some loop ∧ ∃ stitch ∈ loop.parents, stitch.parent = parent

theorem WellFormed.mem_parents (wellFormed : graph.WellFormed) {id : LoopId} {loop : Loop}
    (found : graph.loop? id = some loop) {stitch : Stitch} :
    stitch ∈ loop.parents ↔ stitch ∈ graph.stitches ∧ stitch.child = id := by
  rw [wellFormed.parents id loop found, List.mem_filter, decide_eq_true_iff]

theorem WellFormed.mem_children (wellFormed : graph.WellFormed) {id : LoopId} {loop : Loop}
    (found : graph.loop? id = some loop) {stitch : Stitch} :
    stitch ∈ loop.children ↔ stitch ∈ graph.stitches ∧ stitch.parent = id := by
  rw [wellFormed.children id loop found, List.mem_filter, decide_eq_true_iff]

theorem WellFormed.parentsOf_eq (wellFormed : graph.WellFormed) {id : LoopId} {loop : Loop}
    (found : graph.loop? id = some loop) : graph.parentsOf id = loop.parents.map (·.parent) := by
  rw [parentsOf, wellFormed.parents id loop found]

theorem WellFormed.index_lt_of_pulled (wellFormed : graph.WellFormed) {ancestor id : LoopId}
    (chain : Relation.TransGen graph.Pulled ancestor id) : ancestor.index < id.index := by
  have single : ∀ {parent child}, graph.Pulled parent child → parent.index < child.index := by
    rintro parent child ⟨loop, found, stitch, member, rfl⟩
    obtain ⟨inGraph, rfl⟩ := (wellFormed.mem_parents found).mp member
    exact (wellFormed.below stitch inGraph).1
  induction chain with
  | single pulled => exact single pulled
  | tail _ pulled ih => exact Nat.lt_trans ih (single pulled)

/-- Each stitch is a child edge of one loop, once. -/
theorem WellFormed.children_perm (wellFormed : graph.WellFormed) :
    (graph.loops.toList.flatMap (·.children)).Perm graph.stitches := by
  have children : ∀ index (inRange : index < graph.loops.toList.length),
      graph.loops.toList[index].children = graph.stitches.filter (·.parent = ⟨index⟩) := by
    intro index inRange
    refine wellFormed.children ⟨index⟩ _ ?_
    rw [loop?, ← Array.getElem?_toList]
    exact List.getElem?_eq_getElem inRange
  have once : (graph.loops.toList.flatMap (·.children)).Nodup := by
    rw [List.nodup_flatMap]
    constructor
    · intro loop member
      obtain ⟨index, inRange, rfl⟩ := List.mem_iff_getElem.mp member
      rw [children index inRange]
      exact wellFormed.once.filter _
    · rw [List.pairwise_iff_getElem]
      intro first second firstInRange secondInRange before
      rw [Function.onFun_apply, children first firstInRange, children second secondInRange]
      intro stitch inFirst inSecond
      simp only [List.mem_filter, decide_eq_true_iff] at inFirst inSecond
      have same := inFirst.2.symm.trans inSecond.2
      cases same
      omega
  rw [List.perm_ext_iff_of_nodup once wellFormed.once]
  intro stitch
  rw [List.mem_flatMap]
  constructor
  · rintro ⟨loop, member, isChild⟩
    obtain ⟨index, inRange, rfl⟩ := List.mem_iff_getElem.mp member
    rw [children index inRange] at isChild
    exact (List.mem_filter.mp isChild).1
  · intro member
    have below := wellFormed.below stitch member
    have inRange : stitch.parent.index < graph.loops.toList.length := by
      rw [Array.length_toList]
      exact Nat.lt_trans below.1 below.2
    refine ⟨graph.loops.toList[stitch.parent.index], List.getElem_mem inRange, ?_⟩
    rw [children _ inRange, List.mem_filter]
    exact ⟨member, by simp⟩

end StitchGraph

namespace Machine

variable {machine next : Machine}

structure Tied (machine : Machine) : Prop where
  graph : machine.graph.WellFormed
  free : ∀ loop, machine.Holds loop → ∀ stitch ∈ machine.graph.stitches, stitch.parent ≠ loop

theorem Growth.tied (growth : machine.Growth next) (sound : machine.Sound) (tied : machine.Tied) :
    next.Tied := by
  cases growth with
  | still graph remains =>
      constructor
      · rw [graph]
        exact tied.graph
      · rw [graph]
        exact fun loop held => tied.free loop (remains loop held)
  | @made _ yarns parents pull _ graph once held remains =>
      -- The parents were held, so that nothing was pulled through them.
      have ready : machine.graph.Ready parents pull := by
        refine ⟨once, fun parent member => sound.bound (held parent member), ?_⟩
        intro stitch member isParent
        exact absurd rfl (tied.free _ (held _ isParent) stitch member)
      have grown := tied.graph.grown ready yarns
      rw [← graph] at grown
      refine ⟨grown.wellFormed, ?_⟩
      intro loop here stitch member
      rintro rfl
      rcases remains _ here with ⟨before, notParent⟩ | fresh
      · rcases grown.origin stitch member with old | isParent
        · exact tied.free _ before stitch old rfl
        · exact notParent isParent
      · rcases grown.origin stitch member with old | isParent
        · have below := tied.graph.below stitch old
          omega
        · have known := ready.known _ isParent
          omega

theorem Reachable.tied (reachable : machine.Reachable) : machine.Tied := by
  refine reachable.preserves (fun spec => ?_) fun sound effect tied =>
    (effect.growth sound).tied sound tied
  refine ⟨⟨?_, ?_, ?_, ?_, ?_, ?_⟩, ?_⟩ <;>
    simp [initial, StitchGraph.empty, StitchGraph.stitches, StitchGraph.loop?]

/-- Each stitch is kept once by its child and once by its parent, and its parent is an earlier loop
that is no longer held. Loops with a common parent have all parents in common. -/
structure Stitched (machine : Machine) : Prop where
  id : ∀ id loop, machine.graph.loop? id = some loop → loop.id = id
  parents : ∀ id loop, machine.graph.loop? id = some loop → ∀ stitch ∈ loop.parents,
    stitch.child = id ∧ stitch.parent.index < id.index ∧ loop.parents.count stitch = 1 ∧
      ∃ parent, machine.graph.loop? stitch.parent = some parent ∧ parent.children.count stitch = 1
  children : ∀ id loop, machine.graph.loop? id = some loop → ∀ stitch ∈ loop.children,
    stitch.parent = id ∧
      ∃ child, machine.graph.loop? stitch.child = some child ∧ stitch ∈ child.parents
  acyclic : ∀ id, ¬Relation.TransGen machine.graph.Pulled id id
  once : (machine.graph.stitches.map fun stitch => (stitch.parent, stitch.child)).Nodup
  count : machine.graph.stitchCount =
    (machine.graph.loops.toList.flatMap (·.children)).length
  free : ∀ needle, ∀ id ∈ machine.loops needle,
    ∃ loop, machine.graph.loop? id = some loop ∧ loop.children = []
  pull : ∀ id loop, machine.graph.loop? id = some loop →
    ∀ first ∈ loop.children, ∀ second ∈ loop.children, first.pull = second.pull
  shared : ∀ firstId first secondId second parent, machine.graph.loop? firstId = some first →
    machine.graph.loop? secondId = some second → parent ∈ first.parents.map (·.parent) →
      parent ∈ second.parents.map (·.parent) →
        first.parents.map (·.parent) = second.parents.map (·.parent)

theorem stitched_of_reachable (reachable : machine.Reachable) : machine.Stitched := by
  have sound := reachable.sound
  obtain ⟨wellFormed, free⟩ := reachable.tied
  have found : ∀ {id : LoopId}, id.index < machine.graph.loopCount →
      ∃ loop, machine.graph.loop? id = some loop :=
    fun bound => Option.isSome_iff_exists.mp (StitchGraph.loop?_isSome.mpr bound)
  constructor
  · exact wellFormed.id
  · intro id loop here stitch member
    obtain ⟨inGraph, rfl⟩ := (wellFormed.mem_parents here).mp member
    have below := wellFormed.below stitch inGraph
    obtain ⟨parent, foundParent⟩ := found (Nat.lt_trans below.1 below.2)
    refine ⟨rfl, below.1, ?_, parent, foundParent, ?_⟩
    · refine List.count_eq_one_of_mem ?_ member
      rw [wellFormed.parents _ loop here]
      exact wellFormed.once.filter _
    · refine List.count_eq_one_of_mem ?_ ((wellFormed.mem_children foundParent).mpr ⟨inGraph, rfl⟩)
      rw [wellFormed.children _ parent foundParent]
      exact wellFormed.once.filter _
  · intro id loop here stitch member
    obtain ⟨inGraph, rfl⟩ := (wellFormed.mem_children here).mp member
    obtain ⟨child, foundChild⟩ := found (wellFormed.below stitch inGraph).2
    exact ⟨rfl, child, foundChild, (wellFormed.mem_parents foundChild).mpr ⟨inGraph, rfl⟩⟩
  · intro id chain
    exact Nat.lt_irrefl _ (wellFormed.index_lt_of_pulled chain)
  · refine wellFormed.once.map_on fun first firstMember second secondMember same => ?_
    have sameParent := congrArg Prod.fst same
    have samePull := (wellFormed.shared first firstMember second secondMember sameParent).1
    cases first
    cases second
    simp_all
  · exact wellFormed.children_perm.length_eq.symm
  · intro needle id member
    obtain ⟨loop, here⟩ := found (sound.bound ⟨needle, member⟩)
    refine ⟨loop, here, List.eq_nil_iff_forall_not_mem.mpr fun stitch isChild => ?_⟩
    obtain ⟨inGraph, parent⟩ := (wellFormed.mem_children here).mp isChild
    exact free id ⟨needle, member⟩ stitch inGraph parent
  · intro id loop here first firstMember second secondMember
    obtain ⟨firstInGraph, firstParent⟩ := (wellFormed.mem_children here).mp firstMember
    obtain ⟨secondInGraph, secondParent⟩ := (wellFormed.mem_children here).mp secondMember
    exact (wellFormed.shared first firstInGraph second secondInGraph
      (firstParent.trans secondParent.symm)).1
  · intro firstId first secondId second parent hereFirst hereSecond ofFirst ofSecond
    obtain ⟨firstStitch, firstMember, rfl⟩ := List.mem_map.mp ofFirst
    obtain ⟨secondStitch, secondMember, same⟩ := List.mem_map.mp ofSecond
    obtain ⟨firstInGraph, firstChild⟩ := (wellFormed.mem_parents hereFirst).mp firstMember
    obtain ⟨secondInGraph, secondChild⟩ := (wellFormed.mem_parents hereSecond).mp secondMember
    have sameParents :=
      (wellFormed.shared firstStitch firstInGraph secondStitch secondInGraph same.symm).2
    rw [firstChild, secondChild, wellFormed.parentsOf_eq hereFirst,
      wellFormed.parentsOf_eq hereSecond] at sameParents
    exact sameParents

theorem stitched_tucked_knitted :
    let machine := (initial twoNeedles).afterAll [.apply (.inhook ⟨1⟩),
      .apply (.tuck (.front 0) [⟨1⟩] none), .apply (.knit (.front 0) [⟨1⟩, ⟨1⟩] none)]
    machine.graph.stitches =
        [⟨⟨0⟩, ⟨1⟩, .frontToBack⟩, ⟨⟨0⟩, ⟨2⟩, .frontToBack⟩] ∧ machine.Stitched :=
  ⟨by decide +kernel, stitched_of_reachable (reachable_twoNeedles _)⟩

end Machine

end VBed
