import Mathlib.Data.List.SplitBy
import VBed.Direction

/-!
The order of a pass. No two needles have the same place in it, so a list of needles has just one
sorted form, whatever order it came in. A pass the other way goes through the positions in reverse,
but at each position it reaches the needles in the same order as before.
-/

namespace VBed

def Direction.Along : Direction → Nat → Nat → Prop
  | leftToRight, first, second => first ≤ second
  | rightToLeft, first, second => second ≤ first

namespace Needle

/-- At one position, the front bed goes before the back bed, and on one bed the ordinary needle
before the slider. -/
def NoLater (first second : Needle) : Prop :=
  first.side = .front ∧ second.side = .back ∨
    first.side = second.side ∧ (first.slider = true → second.slider = true)

def samePosition (first second : Needle) : Bool :=
  first.position == second.position

def groups (needles : List Needle) : List (List Needle) :=
  needles.splitBy samePosition

def Apart (group other : List Needle) : Prop :=
  ∀ first ∈ group, ∀ second ∈ other, first.position ≠ second.position

theorem rank_le_iff {first second : Needle} : first.rank ≤ second.rank ↔ first.NoLater second := by
  obtain ⟨side, _, slider⟩ := first
  obtain ⟨otherSide, _, otherSlider⟩ := second
  cases side <;> cases slider <;> cases otherSide <;> cases otherSlider <;>
    simp [rank, NoLater]

theorem NoLater.antisymm {first second : Needle} (there : first.NoLater second)
    (back : second.NoLater first) :
    first.side = second.side ∧ first.slider = second.slider := by
  obtain ⟨side, _, slider⟩ := first
  obtain ⟨otherSide, _, otherSlider⟩ := second
  cases side <;> cases slider <;> cases otherSide <;> cases otherSlider <;>
    simp_all [NoLater]

theorem NoLater.total (first second : Needle) : first.NoLater second ∨ second.NoLater first := by
  rw [← rank_le_iff, ← rank_le_iff]
  exact Nat.le_total first.rank second.rank

theorem NoLater.trans {first second third : Needle} (there : first.NoLater second)
    (on : second.NoLater third) : first.NoLater third := by
  rw [← rank_le_iff] at there on ⊢
  exact Nat.le_trans there on

end Needle

namespace Direction

open Needle (Apart NoLater groups samePosition)

variable {direction : Direction} {needles other : List Needle}

theorem Along.refl (direction : Direction) (position : Nat) :
    direction.Along position position := by
  cases direction <;> exact Nat.le_refl position

theorem Along.total (direction : Direction) (first second : Nat) :
    direction.Along first second ∨ direction.Along second first := by
  cases direction <;> simp only [Along] <;> omega

theorem Along.antisymm {first second : Nat} (there : direction.Along first second)
    (back : direction.Along second first) : first = second := by
  cases direction <;> simp only [Along] at there back <;> omega

theorem Along.trans {first second third : Nat} (there : direction.Along first second)
    (on : direction.Along second third) : direction.Along first third := by
  cases direction <;> simp only [Along] at there on ⊢ <;> omega

theorem along_opposite {first second : Nat} :
    direction.opposite.Along first second ↔ direction.Along second first := by
  cases direction <;> rfl

theorem reaches_iff {first second : Needle} :
    direction.reaches first second = true ↔ direction.Along first.position second.position ∧
      (first.position = second.position → first.NoLater second) := by
  unfold reaches
  split
  · rename_i same
    simp only [decide_eq_true_eq, same, Along.refl, Needle.rank_le_iff, true_and, forall_const]
  · rename_i apart
    cases direction <;> simp only [decide_eq_true_eq, Along] <;> omega

theorem reaches_trans (first second third : Needle)
    (there : direction.reaches first second = true) (on : direction.reaches second third = true) :
    direction.reaches first third = true := by
  obtain ⟨along, within⟩ := reaches_iff.mp there
  obtain ⟨alongOn, withinOn⟩ := reaches_iff.mp on
  refine reaches_iff.mpr ⟨along.trans alongOn, fun same => ?_⟩
  -- The pass does not come back to a position that it has left.
  have early : first.position = second.position := along.antisymm (same ▸ alongOn)
  exact (within early).trans (withinOn (early.symm.trans same))

theorem reaches_total (first second : Needle) :
    (direction.reaches first second || direction.reaches second first) = true := by
  rw [Bool.or_eq_true, reaches_iff, reaches_iff]
  by_cases same : first.position = second.position
  · simpa only [same, Along.refl, true_and, forall_const] using Needle.NoLater.total first second
  · exact (Along.total direction first.position second.position).imp
      (fun along => ⟨along, fun equal => absurd equal same⟩)
      fun along => ⟨along, fun equal => absurd equal.symm same⟩

theorem reaches_antisymm {first second : Needle} (there : direction.reaches first second = true)
    (back : direction.reaches second first = true) : first = second := by
  obtain ⟨along, within⟩ := reaches_iff.mp there
  obtain ⟨alongBack, withinBack⟩ := reaches_iff.mp back
  have same : first.position = second.position := along.antisymm alongBack
  obtain ⟨side, slider⟩ := (within same).antisymm (withinBack same.symm)
  cases first
  cases second
  simp_all

theorem sort_perm (direction : Direction) (needles : List Needle) :
    (direction.sort needles).Perm needles :=
  needles.mergeSort_perm direction.reaches

theorem sort_sorted (direction : Direction) (needles : List Needle) :
    (direction.sort needles).Pairwise fun first second => direction.reaches first second = true :=
  List.pairwise_mergeSort reaches_trans reaches_total needles

/-- The needles of a list have only one order in which the carriage can reach them. -/
theorem sort_eq (same : other.Perm needles)
    (sorted : other.Pairwise fun first second => direction.reaches first second = true) :
    direction.sort needles = other :=
  List.Perm.eq_of_pairwise (fun _ _ _ _ => reaches_antisymm) (sort_sorted direction needles) sorted
    ((sort_perm direction needles).trans same.symm)

theorem sort_sort (direction : Direction) (needles : List Needle) :
    direction.sort (direction.sort needles) = direction.sort needles :=
  sort_eq (List.Perm.refl _) (sort_sorted direction needles)

theorem sort_eq_of_perm (same : other.Perm needles) :
    direction.sort other = direction.sort needles :=
  sort_eq ((sort_perm direction needles).trans same.symm) (sort_sorted direction needles)

theorem position_eq_of_isChain {group : List Needle} {last : Needle}
    (chain : (last :: group).IsChain fun first second => samePosition first second = true) :
    ∀ needle ∈ last :: group, needle.position = last.position := by
  induction group generalizing last with
  | nil =>
      intro needle member
      rw [List.mem_singleton.mp member]
  | cons next rest ih =>
      obtain ⟨beside, goesOn⟩ := List.isChain_cons_cons.mp chain
      intro needle member
      rcases List.mem_cons.mp member with rfl | later
      · rfl
      · exact (ih goesOn needle later).trans (beq_iff_eq.mp beside).symm

theorem position_eq_of_mem_groups {group : List Needle} (member : group ∈ groups needles)
    {first second : Needle} (mem : first ∈ group) (memSecond : second ∈ group) :
    first.position = second.position := by
  have chain := List.isChain_of_mem_splitBy member
  cases group with
  | nil => cases mem
  | cons head rest =>
      have same := position_eq_of_isChain chain
      exact (same first mem).trans (same second memSecond).symm

/-- Neighbouring groups of a list in pass order stand at different positions, so any two groups do:
the pass would have to come back to a position. -/
theorem apart_of_neighbours {parts : List (List Needle)}
    (constant : ∀ group ∈ parts, ∀ first ∈ group, ∀ second ∈ group,
      first.position = second.position)
    (onward : parts.Pairwise fun earlier later => ∀ first ∈ earlier, ∀ second ∈ later,
      direction.Along first.position second.position)
    (neighbours : parts.IsChain fun earlier later => ∃ nonempty nonemptyLater,
      samePosition (earlier.getLast nonempty) (later.head nonemptyLater) = false) :
    parts.Pairwise Apart := by
  induction parts with
  | nil => exact List.Pairwise.nil
  | cons group rest ih =>
      obtain ⟨onwardFirst, onwardRest⟩ := List.pairwise_cons.mp onward
      refine List.pairwise_cons.mpr ⟨fun later member first mem second memSecond same => ?_,
        ih (fun part inRest => constant part (List.mem_cons_of_mem group inRest)) onwardRest
          neighbours.tail⟩
      cases rest with
      | nil => cases member
      | cons next others =>
          obtain ⟨⟨nonempty, nonemptyNext, differ⟩, _⟩ := List.isChain_cons_cons.mp neighbours
          have memHead : next.head nonemptyNext ∈ next := List.head_mem nonemptyNext
          have there : direction.Along first.position (next.head nonemptyNext).position :=
            onwardFirst next (List.mem_cons_self ..) first mem _ memHead
          have back : direction.Along (next.head nonemptyNext).position first.position := by
            rw [same]
            rcases List.mem_cons.mp member with rfl | inOthers
            · rw [constant _ (List.mem_cons_of_mem group (List.mem_cons_self ..)) _ memHead _
                memSecond]
              exact Along.refl _ _
            · exact (List.pairwise_cons.mp onwardRest).1 later inOthers _ memHead second memSecond
          have atFirst : (group.getLast nonempty).position = first.position :=
            constant group (List.mem_cons_self ..) _ (List.getLast_mem nonempty) first mem
          exact absurd (atFirst.trans (there.antisymm back)) (beq_eq_false_iff_ne.mp differ)

theorem groups_apart (sorted : needles.Pairwise fun first second =>
      direction.reaches first second = true) :
    (groups needles).Pairwise Apart := by
  rw [← List.flatten_splitBy samePosition needles, List.pairwise_flatten] at sorted
  have onward : (groups needles).Pairwise fun earlier later => ∀ first ∈ earlier, ∀ second ∈ later,
      direction.Along first.position second.position :=
    sorted.2.imp fun across first mem second memSecond =>
      (reaches_iff.mp (across first mem second memSecond)).1
  exact apart_of_neighbours
    (fun _ member _ mem _ memSecond => position_eq_of_mem_groups member mem memSecond) onward
    (List.isChain_getLast_head_splitBy samePosition needles)

theorem sort_opposite (direction : Direction) (needles : List Needle) :
    direction.opposite.sort needles = (groups (direction.sort needles)).reverse.flatten := by
  have sorted := sort_sorted direction needles
  have apart := groups_apart sorted
  have whole : (groups (direction.sort needles)).flatten = direction.sort needles :=
    List.flatten_splitBy samePosition _
  rw [← whole, List.pairwise_flatten] at sorted
  refine sort_eq ?_ (List.pairwise_flatten.mpr ⟨fun group member => ?_, ?_⟩)
  · exact ((List.reverse_perm _).flatten.trans (List.Perm.of_eq whole)).trans
      (sort_perm direction needles)
  · rw [List.mem_reverse] at member
    refine (sorted.1 group member).imp_of_mem fun mem memSecond reached => ?_
    have same := position_eq_of_mem_groups member mem memSecond
    exact reaches_iff.mpr ⟨by rw [same]; exact Along.refl _ _, (reaches_iff.mp reached).2⟩
  · rw [List.pairwise_reverse]
    refine (sorted.2.and apart).imp fun both second memSecond first mem => ?_
    obtain ⟨across, differ⟩ := both
    exact reaches_iff.mpr
      ⟨along_opposite.mpr (reaches_iff.mp (across first mem second memSecond)).1,
      fun same => absurd same.symm (differ first mem second memSecond)⟩

theorem groups_sort_opposite (direction : Direction) (needles : List Needle) :
    groups (direction.opposite.sort needles) = (groups (direction.sort needles)).reverse := by
  have apart := groups_apart (sort_sorted direction needles)
  have nonempty := List.nil_notMem_splitBy samePosition (direction.sort needles)
  refine List.splitBy_eq_iff.mpr ⟨sort_opposite direction needles, ?_, ?_, ?_⟩
  · rwa [List.mem_reverse]
  · intro group member
    exact List.isChain_of_mem_splitBy (List.mem_reverse.mp member)
  · refine (List.pairwise_reverse.mpr ?_).isChain
    refine apart.imp_of_mem fun {group other} member memOther differ => ?_
    have filled : group ≠ [] := ne_of_mem_of_not_mem member nonempty
    have filledOther : other ≠ [] := ne_of_mem_of_not_mem memOther nonempty
    exact ⟨filledOther, filled, beq_eq_false_iff_ne.mpr
      (differ _ (List.head_mem filled) _ (List.getLast_mem filledOther)).symm⟩

/-- The needles sorted for a pass: which order that is, that it depends on the needles alone, and
how the pass back goes. -/
structure SortsCanonically (direction : Direction) (needles : List Needle) : Prop where
  same : (direction.sort needles).Perm needles
  along : (direction.sort needles).Pairwise fun first second =>
    direction.Along first.position second.position
  within : (direction.sort needles).Pairwise fun first second =>
    first.position = second.position → first.NoLater second
  canonical : ∀ other : List Needle, other.Perm needles →
    direction.sort other = direction.sort needles
  idempotent : direction.sort (direction.sort needles) = direction.sort needles
  apart : (groups (direction.sort needles)).Pairwise Apart
  together : ∀ group ∈ groups (direction.sort needles), ∀ first ∈ group, ∀ second ∈ group,
    first.position = second.position
  whole : (groups (direction.sort needles)).flatten = direction.sort needles
  back : groups (direction.opposite.sort needles) = (groups (direction.sort needles)).reverse

theorem sorts_canonically (direction : Direction) (needles : List Needle) :
    direction.SortsCanonically needles where
  same := sort_perm direction needles
  along := (sort_sorted direction needles).imp fun reached => (reaches_iff.mp reached).1
  within := (sort_sorted direction needles).imp fun reached => (reaches_iff.mp reached).2
  canonical _ same := sort_eq_of_perm same
  idempotent := sort_sort direction needles
  apart := groups_apart (sort_sorted direction needles)
  together _ member _ mem _ memSecond := position_eq_of_mem_groups member mem memSecond
  whole := List.flatten_splitBy samePosition _
  back := groups_sort_opposite direction needles

-- The pass back is not the pass reversed: at position 2 the front bed still comes first.
example : rightToLeft.sort [⟨.back, 2, false⟩, ⟨.front, 1, false⟩, ⟨.front, 2, true⟩,
      ⟨.front, 2, false⟩] =
    [⟨.front, 2, false⟩, ⟨.front, 2, true⟩, ⟨.back, 2, false⟩, ⟨.front, 1, false⟩] :=
  sort_eq (by decide) (by decide)

end Direction

end VBed
