import VBed.Proofs.Loops

/-!
Making loops. New loops get the next indices of the graph, one for each yarn, and each is pulled
through all parents. Nothing is refused as long as no parent lies beyond the first new loop.
-/

namespace VBed

namespace StitchGraph

def nextLoops (graph : StitchGraph) (count : Nat) : List LoopId :=
  (List.range' graph.loopCount count).map LoopId.mk

def pulledThrough (graph : StitchGraph) (child : LoopId) (pull : Pull) (parents : List LoopId) :
    StitchGraph :=
  parents.foldl (fun grown parent => grown.addStitch ⟨parent, child, pull⟩) graph

def grown (graph : StitchGraph) (parents : List LoopId) (pull : Pull) : List Yarn → StitchGraph
  | [] => graph
  | yarn :: rest =>
      ((graph.newLoop yarn).2.pulledThrough (graph.newLoop yarn).1 pull parents).grown
        parents pull rest

@[simp] theorem contains_iff {graph : StitchGraph} {id : LoopId} :
    graph.contains id = true ↔ id.index < graph.loopCount := by
  simp [contains]

@[simp] theorem loopCount_newLoop (graph : StitchGraph) (yarn : Yarn) :
    (graph.newLoop yarn).2.loopCount = graph.loopCount + 1 := by
  simp [newLoop, loopCount]

theorem contains_newLoop {graph : StitchGraph} (yarn : Yarn) {loop : LoopId} :
    (graph.newLoop yarn).2.contains loop ↔ loop.index ≤ graph.loopCount := by
  rw [contains_iff, loopCount_newLoop, Nat.lt_succ_iff]

@[simp] theorem loopCount_addStitch (graph : StitchGraph) (stitch : Stitch) :
    (graph.addStitch stitch).loopCount = graph.loopCount := by
  simp [addStitch, loopCount]

@[simp] theorem loopCount_pulledThrough (graph : StitchGraph) (child : LoopId) (pull : Pull)
    (parents : List LoopId) :
    (graph.pulledThrough child pull parents).loopCount = graph.loopCount := by
  induction parents generalizing graph with
  | nil => rfl
  | cons parent rest ih =>
      change ((graph.addStitch ⟨parent, child, pull⟩).pulledThrough child pull rest).loopCount = _
      rw [ih, loopCount_addStitch]

theorem loopCount_grown (graph : StitchGraph) (parents : List LoopId) (pull : Pull)
    (yarns : List Yarn) :
    (graph.grown parents pull yarns).loopCount = graph.loopCount + yarns.length := by
  induction yarns generalizing graph with
  | nil => rfl
  | cons yarn rest ih =>
      rw [grown, ih, loopCount_pulledThrough, loopCount_newLoop, List.length_cons]
      omega

theorem mem_nextLoops {graph : StitchGraph} {count : Nat} {id : LoopId} :
    id ∈ graph.nextLoops count ↔
      graph.loopCount ≤ id.index ∧ id.index < graph.loopCount + count := by
  simp only [nextLoops, List.mem_map, List.mem_range'_1]
  constructor
  · rintro ⟨index, bounds, rfl⟩
    exact bounds
  · intro bounds
    exact ⟨id.index, bounds, rfl⟩

theorem nodup_nextLoops (graph : StitchGraph) (count : Nat) : (graph.nextLoops count).Nodup :=
  List.Pairwise.map LoopId.mk (fun _ _ differ same => differ (congrArg LoopId.index same))
    List.nodup_range'

theorem connect_known {graph : StitchGraph} {parent child : LoopId} (pull : Pull)
    (parentKnown : graph.contains parent) (childKnown : graph.contains child) :
    graph.connect parent child pull = .ok (graph.addStitch ⟨parent, child, pull⟩) := by
  simp only [connect, check, parentKnown, childKnown, if_true]
  rfl

end StitchGraph

namespace Bed

theorem pullThrough_run (bed : Bed) (graph : StitchGraph) (child : LoopId) (pull : Pull)
    (parents : List LoopId) (childKnown : graph.contains child)
    (parentsKnown : ∀ parent ∈ parents, graph.contains parent) :
    pullThrough child pull parents (bed, graph) =
      .ok () (bed, graph.pulledThrough child pull parents) := by
  induction parents generalizing graph with
  | nil => rfl
  | cons parent rest ih =>
      have connected := StitchGraph.connect_known pull (parentsKnown parent (by simp)) childKnown
      have tail := ih (graph.addStitch ⟨parent, child, pull⟩) (by simpa using childKnown)
        (fun other member => by simpa using parentsKnown other (by simp [member]))
      rw [pullThrough, run_get_bind]
      simp only [connected]
      exact tail

theorem makeLoops_cons (bed : Bed) (graph : StitchGraph) (parents : List LoopId) (pull : Pull)
    (yarn : Yarn) (rest : List Yarn) :
    makeLoops parents pull (yarn :: rest) (bed, graph) =
      (pullThrough (graph.newLoop yarn).1 pull parents >>= fun _ =>
        makeLoops parents pull rest >>= fun made => pure ((graph.newLoop yarn).1 :: made))
          (bed, (graph.newLoop yarn).2) := by
  rw [makeLoops, run_get_bind]
  rfl

theorem makeLoops_run (bed : Bed) (graph : StitchGraph) (parents : List LoopId) (pull : Pull)
    (yarns : List Yarn) (near : ∀ parent ∈ parents, parent.index ≤ graph.loopCount) :
    makeLoops parents pull yarns (bed, graph) =
      .ok (graph.nextLoops yarns.length) (bed, graph.grown parents pull yarns) := by
  induction yarns generalizing graph with
  | nil => rfl
  | cons yarn rest ih =>
      let child := (graph.newLoop yarn).1
      let next := (graph.newLoop yarn).2
      have nextCount : next.loopCount = graph.loopCount + 1 :=
        StitchGraph.loopCount_newLoop graph yarn
      have childKnown : next.contains child :=
        (StitchGraph.contains_newLoop yarn).mpr (Nat.le_refl _)
      have known : ∀ parent ∈ parents, next.contains parent :=
        fun parent member => (StitchGraph.contains_newLoop yarn).mpr (near parent member)
      have pulled := pullThrough_run bed next child pull parents childKnown known
      have tail := ih (next.pulledThrough child pull parents) fun parent member => by
        rw [StitchGraph.loopCount_pulledThrough, nextCount]
        exact Nat.le_succ_of_le (near parent member)
      have made : makeLoops parents pull (yarn :: rest) (bed, graph) =
          .ok (child :: (next.pulledThrough child pull parents).nextLoops rest.length)
            (bed, (next.pulledThrough child pull parents).grown parents pull rest) := by
        rw [makeLoops_cons, run_bind_ok pulled, run_bind_ok tail]
        rfl
      rw [made]
      congr 1
      simp only [StitchGraph.nextLoops, StitchGraph.loopCount_pulledThrough, nextCount,
        List.length_cons, List.range'_succ, List.map_cons]
      rfl

theorem append_put (bed : Bed) (needle : Needle) (added : List LoopId) :
    (bed.put needle []).append needle added = bed.put needle added := by
  rw [append, at?_put, if_pos ⟨rfl, rfl⟩, put_put]
  cases bed.at? needle <;> rfl

/-- New loops on a needle whose loops drop become the children of those loops. -/
theorem addLoops_dropping {bed : Bed} {graph : StitchGraph} {needle : Needle}
    {prior : List LoopId} (yarns : List Yarn) (found : bed.at? needle = some prior)
    (near : ∀ loop ∈ prior, loop.index ≤ graph.loopCount) :
    addLoops needle (.made yarns) true (bed, graph) =
      .ok (graph.nextLoops yarns.length)
        (bed.put needle (graph.nextLoops yarns.length), graph.grown prior bed.pull yarns) := by
  have made := makeLoops_run (bed.put needle []) graph prior bed.pull yarns near
  rw [addLoops, run_get_bind]
  simp only [loopsAt_eq_ok.mpr found]
  change (makeLoops prior bed.pull yarns >>= _) (bed.put needle [], graph) = _
  rw [run_bind_ok made]
  change EStateM.Result.ok _ ((bed.put needle []).append needle _, _) = _
  rw [append_put]

/-- New loops on a needle that keeps its loops have no parents. -/
theorem addLoops_keeping {bed : Bed} {graph : StitchGraph} {needle : Needle}
    {prior : List LoopId} (yarns : List Yarn) (found : bed.at? needle = some prior) :
    addLoops needle (.made yarns) false (bed, graph) =
      .ok (graph.nextLoops yarns.length)
        (bed.put needle (prior ++ graph.nextLoops yarns.length),
          graph.grown [] bed.pull yarns) := by
  have made := makeLoops_run bed graph [] bed.pull yarns (by simp)
  rw [addLoops, run_get_bind]
  simp only [loopsAt_eq_ok.mpr found]
  change (makeLoops [] bed.pull yarns >>= _) (bed, graph) = _
  rw [run_bind_ok made]
  change EStateM.Result.ok _ (bed.append needle _, _) = _
  rw [append, found, Option.getD_some]

/-- Loops moved to a needle come behind those it holds. -/
theorem addLoops_moved {bed : Bed} (graph : StitchGraph) {needle : Needle}
    {prior : List LoopId} (loops : List LoopId) (found : bed.at? needle = some prior) :
    addLoops needle (.moved loops) false (bed, graph) =
      .ok loops (bed.put needle (prior ++ loops), graph) := by
  rw [addLoops, run_get_bind]
  simp only [loopsAt_eq_ok.mpr found]
  change EStateM.Result.ok loops (bed.append needle loops, graph) = _
  rw [append, found, Option.getD_some]

/-- Loops moved to a needle whose loops drop are alone on it. -/
theorem addLoops_replacing {bed : Bed} (graph : StitchGraph) {needle : Needle}
    {prior : List LoopId} (loops : List LoopId) (found : bed.at? needle = some prior) :
    addLoops needle (.moved loops) true (bed, graph) =
      .ok loops (bed.put needle loops, graph) := by
  rw [addLoops, run_get_bind]
  simp only [loopsAt_eq_ok.mpr found]
  change EStateM.Result.ok loops ((bed.put needle []).append needle loops, graph) = _
  rw [append_put]

end Bed

end VBed
