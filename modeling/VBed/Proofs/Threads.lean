import VBed.Proofs.Growth

/-!
The loops of each yarn. The graph keeps them in the order in which they were made, by yarn, and each
loop keeps the one before it; both tell the same of every graph that grows from the empty one.
-/

namespace VBed

namespace Yarn

theorem before_iff {left right : Yarn} :
    left.before right = true ↔ left.carrier.number < right.carrier.number ∨
      left.carrier.number = right.carrier.number ∧ left.segment < right.segment := by
  simp [before]

theorem before_irrefl (yarn : Yarn) : ¬yarn.before yarn = true := by
  rw [before_iff]
  omega

theorem before_trans {left middle right : Yarn} (first : left.before middle = true)
    (second : middle.before right = true) : left.before right = true := by
  rw [before_iff] at *
  omega

theorem before_of_not {left right : Yarn} (differs : right ≠ left)
    (notBefore : ¬left.before right = true) : right.before left = true := by
  rw [before_iff] at *
  rcases left with ⟨⟨leftNumber⟩, leftSegment⟩
  rcases right with ⟨⟨rightNumber⟩, rightSegment⟩
  simp only [ne_eq, Yarn.mk.injEq, CarrierId.mk.injEq] at differs
  simp only at notBefore ⊢
  omega

end Yarn

namespace StitchGraph

variable {graph : StitchGraph} {parents : List LoopId} {pull : Pull}

def Ordered (entries : List (Yarn × Array LoopId)) : Prop :=
  entries.Pairwise fun left right => left.1.before right.1 = true

theorem mem_appendToYarn {yarn : Yarn} {id : LoopId} {entries : List (Yarn × Array LoopId)}
    {entry : Yarn × Array LoopId} (member : entry ∈ appendToYarn yarn id entries) :
    entry.1 = yarn ∨ entry ∈ entries := by
  induction entries with
  | nil => exact Or.inl (congrArg Prod.fst (List.mem_singleton.mp member))
  | cons head rest ih =>
      obtain ⟨other, loops⟩ := head
      simp only [appendToYarn] at member
      split at member
      · rename_i here
        rcases List.mem_cons.mp member with rfl | later
        · exact Or.inl here
        · exact Or.inr (List.mem_cons_of_mem _ later)
      · split at member
        · rcases List.mem_cons.mp member with rfl | later
          · exact Or.inl rfl
          · exact Or.inr later
        · rcases List.mem_cons.mp member with rfl | later
          · exact Or.inr (by simp)
          · rcases ih later with same | old
            · exact Or.inl same
            · exact Or.inr (List.mem_cons_of_mem _ old)

theorem ordered_appendToYarn (yarn : Yarn) (id : LoopId) {entries : List (Yarn × Array LoopId)}
    (ordered : Ordered entries) : Ordered (appendToYarn yarn id entries) := by
  induction entries with
  | nil => exact List.pairwise_singleton _ _
  | cons head rest ih =>
      obtain ⟨other, loops⟩ := head
      obtain ⟨first, later⟩ := List.pairwise_cons.mp ordered
      simp only [appendToYarn]
      split
      · exact List.pairwise_cons.mpr ⟨first, later⟩
      · rename_i differs
        split
        · rename_i before
          refine List.pairwise_cons.mpr ⟨fun entry member => ?_, ordered⟩
          rcases List.mem_cons.mp member with rfl | inRest
          · exact before
          · exact Yarn.before_trans before (first entry inRest)
        · rename_i notBefore
          refine List.pairwise_cons.mpr ⟨fun entry member => ?_, ih later⟩
          rcases mem_appendToYarn member with same | old
          · rw [same]
            exact Yarn.before_of_not differs notBefore
          · exact first entry old

theorem lookup_eq_none_of_before {yarn : Yarn} {entries : List (Yarn × Array LoopId)}
    (before : ∀ entry ∈ entries, yarn.before entry.1 = true) : entries.lookup yarn = none := by
  rw [List.lookup_eq_none_iff]
  intro entry member
  have differs : yarn ≠ entry.1 := by
    intro same
    have first := before entry member
    rw [← same] at first
    exact Yarn.before_irrefl yarn first
  simpa using differs

theorem lookup_entry (other key : Yarn) (loops : Array LoopId)
    (rest : List (Yarn × Array LoopId)) :
    ((key, loops) :: rest).lookup other =
      if other = key then some loops else rest.lookup other := by
  rw [List.lookup_cons]
  by_cases same : other = key
  · simp [same]
  · simp [same, beq_eq_false_iff_ne.mpr same]

theorem lookup_appendToYarn (yarn other : Yarn) (id : LoopId)
    {entries : List (Yarn × Array LoopId)} (ordered : Ordered entries) :
    (appendToYarn yarn id entries).lookup other =
      if other = yarn then some (((entries.lookup yarn).getD #[]).push id)
      else entries.lookup other := by
  induction entries with
  | nil => exact lookup_entry other yarn #[id] []
  | cons head rest ih =>
      obtain ⟨key, loops⟩ := head
      obtain ⟨first, later⟩ := List.pairwise_cons.mp ordered
      simp only [appendToYarn]
      split
      · rename_i here
        subst key
        simp only [lookup_entry, if_true, Option.getD_some]
        split <;> rfl
      · rename_i differs
        split
        · rename_i before
          have none : ((key, loops) :: rest).lookup yarn = none := by
            refine lookup_eq_none_of_before fun entry member => ?_
            rcases List.mem_cons.mp member with rfl | inRest
            · exact before
            · exact Yarn.before_trans before (first entry inRest)
          rw [none, lookup_entry]
          rfl
        · simp only [lookup_entry, ih later, if_neg (Ne.symm differs)]
          by_cases here : other = key
          · simp only [here, if_true, if_neg differs]
          · simp only [if_neg here]

def strand? (graph : StitchGraph) (id : LoopId) : Option (Yarn × Option LoopId) :=
  (graph.loop? id).map fun loop => (loop.yarn, loop.prior)

theorem strand?_eq_some {id : LoopId} {strand : Yarn × Option LoopId} :
    graph.strand? id = some strand ↔
      ∃ loop, graph.loop? id = some loop ∧ (loop.yarn, loop.prior) = strand :=
  Option.map_eq_some_iff

theorem strand?_isSome {id : LoopId} :
    (graph.strand? id).isSome ↔ id.index < graph.loopCount := by
  rw [strand?, Option.isSome_map, loop?_isSome]

theorem strand_lt {id : LoopId} {strand : Yarn × Option LoopId}
    (found : graph.strand? id = some strand) : id.index < graph.loopCount :=
  strand?_isSome.mp (Option.isSome_iff_exists.mpr ⟨strand, found⟩)

theorem strand?_added (parents : List LoopId) (pull : Pull) (yarn : Yarn) (id : LoopId) :
    (graph.added parents pull yarn).strand? id =
      if id = graph.next then some (yarn, graph.last? yarn) else graph.strand? id := by
  rw [strand?, loop?_added]
  split
  · rfl
  · rw [Option.map_map]
    rfl

theorem yarns_sewn (stitches : List Stitch) : (graph.sewn stitches).yarns = graph.yarns := by
  induction stitches generalizing graph with
  | nil => rfl
  | cons stitch rest ih => exact ih

theorem yarns_added (parents : List LoopId) (pull : Pull) (yarn : Yarn) :
    (graph.added parents pull yarn).yarns = appendToYarn yarn graph.next graph.yarns := by
  rw [added_eq, yarns_sewn]
  rfl

theorem yarnLoops_added (ordered : Ordered graph.yarns) (parents : List LoopId) (pull : Pull)
    (yarn other : Yarn) :
    (graph.added parents pull yarn).yarnLoops other =
      if other = yarn then (graph.yarnLoops yarn).push graph.next else graph.yarnLoops other := by
  rw [yarnLoops, yarns_added, lookup_appendToYarn yarn other graph.next ordered]
  split
  · rfl
  · rfl

structure Threaded (graph : StitchGraph) : Prop where
  ordered : Ordered graph.yarns
  increasing : ∀ yarn, (graph.yarnLoops yarn).toList.Pairwise (·.index < ·.index)
  listed : ∀ id yarn prior, graph.strand? id = some (yarn, prior) → id ∈ graph.yarnLoops yarn
  prior : ∀ (yarn : Yarn) (position : Nat) (id : LoopId),
    (graph.yarnLoops yarn)[position]? = some id →
      graph.strand? id =
        some (yarn, if position = 0 then none else (graph.yarnLoops yarn)[position - 1]?)

theorem Threaded.lt_next (threaded : graph.Threaded) {yarn : Yarn} {id : LoopId}
    (member : id ∈ graph.yarnLoops yarn) : id.index < graph.loopCount := by
  obtain ⟨position, found⟩ := Array.mem_iff_getElem?.mp member
  exact strand_lt (threaded.prior yarn position id found)

theorem Threaded.added (threaded : graph.Threaded) (parents : List LoopId) (pull : Pull)
    (yarn : Yarn) : (graph.added parents pull yarn).Threaded := by
  have loops := yarnLoops_added threaded.ordered parents pull yarn
  constructor
  · rw [yarns_added]
    exact ordered_appendToYarn yarn graph.next threaded.ordered
  · intro other
    rw [loops]
    split
    · rw [Array.toList_push, List.pairwise_append]
      refine ⟨threaded.increasing yarn, List.pairwise_singleton _ _, ?_⟩
      intro id member last isLast
      rw [List.mem_singleton.mp isLast]
      exact threaded.lt_next (Array.mem_toList_iff.mp member)
    · exact threaded.increasing other
  · intro id other prior found
    rw [strand?_added] at found
    rw [loops]
    split at found
    · rename_i new
      cases found
      rw [if_pos rfl, new]
      exact Array.mem_push_self
    · have old := threaded.listed id other prior found
      split
      · rename_i same
        rw [same] at old
        exact Array.mem_push_of_mem _ old
      · exact old
  · intro other position id found
    -- A loop that was there keeps its place, and so does the one before it.
    have kept : (graph.yarnLoops other)[position]? = some id →
        (graph.added parents pull yarn).strand? id =
          some (other, if position = 0 then none else (graph.yarnLoops other)[position - 1]?) := by
      intro old
      have differs : id ≠ graph.next := by
        intro same
        have below := threaded.lt_next (Array.mem_of_getElem? old)
        rw [eq_next_iff.mp same] at below
        omega
      rw [strand?_added, if_neg differs]
      exact threaded.prior other position id old
    rw [loops] at found ⊢
    by_cases same : other = yarn
    · subst other
      rw [if_pos rfl, Array.getElem?_push] at found
      rw [if_pos rfl, Array.getElem?_push]
      by_cases last : position = (graph.yarnLoops yarn).size
      · rw [if_pos last] at found
        cases found
        rw [strand?_added, if_pos rfl, last?, Array.back?, last]
        by_cases empty : (graph.yarnLoops yarn).size = 0
        · simp [empty]
        · have earlier : (graph.yarnLoops yarn).size - 1 ≠ (graph.yarnLoops yarn).size := by omega
          rw [if_neg empty, if_neg earlier]
      · rw [if_neg last] at found
        have inRange : position < (graph.yarnLoops yarn).size :=
          (Array.getElem?_eq_some_iff.mp found).1
        have earlier : position - 1 ≠ (graph.yarnLoops yarn).size := by omega
        rw [if_neg earlier]
        exact kept found
    · rw [if_neg same] at found ⊢
      exact kept found

theorem Threaded.grown (threaded : graph.Threaded) (parents : List LoopId) (pull : Pull)
    (yarns : List Yarn) : (graph.grown parents pull yarns).Threaded :=
  grown_preserves Threaded (fun _ yarn _ current => current.added parents pull yarn) threaded

theorem threaded_empty : empty.Threaded := by
  refine ⟨List.Pairwise.nil, fun _ => List.Pairwise.nil, ?_, ?_⟩
  · intro id yarn prior found
    cases found
  · intro yarn position id found
    cases found

/-- The prior loop was made before, of the same yarn. -/
theorem Threaded.prior_before (threaded : graph.Threaded) {id before : LoopId} {yarn : Yarn}
    (found : graph.strand? id = some (yarn, some before)) :
    before.index < id.index ∧ ∃ prior, graph.strand? before = some (yarn, prior) := by
  obtain ⟨position, here⟩ :=
    Array.mem_iff_getElem?.mp (threaded.listed id yarn (some before) found)
  have prior := threaded.prior yarn position id here
  rw [found, Option.some.injEq, Prod.mk.injEq] at prior
  by_cases start : position = 0
  · simp [start] at prior
  · rw [if_neg start] at prior
    have earlier := prior.2.symm
    refine ⟨?_, _, threaded.prior yarn (position - 1) before earlier⟩
    rw [← Array.getElem?_toList] at here earlier
    obtain ⟨inRange, rfl⟩ := List.getElem?_eq_some_iff.mp here
    obtain ⟨earlierInRange, rfl⟩ := List.getElem?_eq_some_iff.mp earlier
    exact List.pairwise_iff_getElem.mp (threaded.increasing yarn) (position - 1) position
      earlierInRange inRange (by omega)

structure Spun (graph : StitchGraph) (yarns : List Yarn) (later : StitchGraph) : Prop where
  count : graph.loopCount ≤ later.loopCount
  old : ∀ id, id.index < graph.loopCount → later.strand? id = graph.strand? id
  new : ∀ id yarn prior, graph.loopCount ≤ id.index → later.strand? id = some (yarn, prior) →
    yarn ∈ yarns

theorem Spun.refl (graph : StitchGraph) (yarns : List Yarn) : graph.Spun yarns graph where
  count := Nat.le_refl _
  old _ _ := rfl
  new _ _ _ fresh found := absurd (strand_lt found) (Nat.not_lt_of_le fresh)

theorem Spun.added {yarns : List Yarn} {current : StitchGraph} (spun : graph.Spun yarns current)
    {yarn : Yarn} (member : yarn ∈ yarns) :
    graph.Spun yarns (current.added parents pull yarn) := by
  constructor
  · rw [loopCount_added]
    exact Nat.le_succ_of_le spun.count
  · intro id known
    have differs : id ≠ current.next := by
      intro same
      have last := eq_next_iff.mp same
      have count := spun.count
      omega
    rw [strand?_added, if_neg differs, spun.old id known]
  · intro id other prior fresh found
    rw [strand?_added] at found
    split at found
    · cases found
      exact member
    · exact spun.new id other prior fresh found

theorem spun_grown (parents : List LoopId) (pull : Pull) (yarns : List Yarn) :
    graph.Spun yarns (graph.grown parents pull yarns) :=
  grown_preserves (graph.Spun yarns) (fun _ _ member spun => spun.added member)
    (Spun.refl graph yarns)

end StitchGraph

end VBed
