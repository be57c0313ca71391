import Mathlib.Data.List.Nodup
import VBed.Proofs.SheetSets
import VBed.Proofs.Unloading

/-!
The lines of peeling and resetting, in their order: the racking when it has to change, then sheet by
sheet the needles that peeling moves, and last the loops that return, each bed position by position.
No needle is in two of the transfers, so each moves just the loops that its needle held before the
first of them.
-/

namespace VBed

namespace Machine

variable {machine next : Machine} {plan : PeelPlan} {sheets : List Nat} {returns : List Needle}

theorem ascending_blockers (sheets : List Nat) (activeLayer : Nat → Nat) :
    ((machine.otherPositions sheets).filterMap fun position =>
      machine.blocker? (activeLayer position) position).Pairwise (·.position < ·.position) := by
  refine List.pairwise_filterMap.mpr ((List.pairwise_lt_range.filter _).imp ?_)
  intro first second lower needle found other alsoFound
  rwa [(blocker_facts found).1, (blocker_facts alsoFound).1]

theorem ascending_peelPlan {sheet : Nat} (planned : machine.peelPlan sheet = .ok plan) :
    plan.moves.Pairwise (·.position < ·.position) := by
  simp only [peelPlan, then_eq_ok, pure_eq_ok] at planned
  obtain ⟨_, rfl⟩ := planned
  exact ascending_blockers _ _

theorem ascending_peelPlanAll (planned : machine.peelPlanAll sheets = .ok plan) :
    plan.moves.Pairwise (·.position < ·.position) := by
  simp only [peelPlanAll, throw_bind, refusal_eq_ok, then_eq_ok, pure_eq_ok] at planned
  obtain ⟨_, _, _, rfl⟩ := planned
  exact ascending_blockers _ _

structure Follows (machine : Machine) (plan : PeelPlan) (returns : List Needle) : Prop where
  ascend : returns.Pairwise (·.position < ·.position)
  ordinary : ∀ start ∈ returns, start.slider = false
  inRange : ∀ start ∈ returns, start.position < machine.needleCount
  settled : ∀ start ∈ returns, ∀ needle ∈ plan.moves, start.position ≠ needle.position

theorem follows_nil : machine.Follows plan [] :=
  ⟨.nil, by simp, by simp, by simp⟩

section Moving

variable (reachable : machine.Reachable) (exactly : plan.Exact machine sheets)
  (ascend : plan.moves.Pairwise (·.position < ·.position)) (follows : machine.Follows plan returns)

include ascend follows in
theorem nodup_positions : ((plan.ordered machine ++ returns).map (·.position)).Nodup := by
  have ordered : (plan.ordered machine).Pairwise (·.position ≠ ·.position) := by
    refine List.pairwise_flatMap.mpr ⟨fun sheet _ => ?_, ?_⟩
    · exact (ascend.filter _).imp Nat.ne_of_lt
    -- Positions of different sheets have different remainders.
    · refine List.pairwise_lt_range.imp fun lower first inFirst second inSecond same => ?_
      have firstSheet := beq_iff_eq.mp (List.mem_filter.mp inFirst).2
      have secondSheet := beq_iff_eq.mp (List.mem_filter.mp inSecond).2
      rw [same] at firstSheet
      omega
  refine List.pairwise_map.mpr (List.pairwise_append.mpr ⟨ordered, ?_, ?_⟩)
  · exact follows.ascend.imp Nat.ne_of_lt
  · exact fun needle member start comesBack same =>
      follows.settled start comesBack needle (mem_ordered member) same.symm

include reachable exactly ascend follows

end Moving

section Returning

variable (reachable : machine.Reachable) {chosen : Nat → Bool}
  (settled : ∀ position, chosen position = true → ∀ needle ∈ plan.moves,
    position ≠ needle.position)
  (returning : machine.returnPlan plan chosen = .ok returns)

include returning in
theorem ascending_returns : returns.Pairwise (·.position < ·.position) := by
  obtain ⟨starts, found, same⟩ := bind_eq_ok.mp returning
  obtain rfl := pure_eq_ok.mp same
  refine List.pairwise_filterMap.mpr (pairwise_of_mapM_ok ?_ found
    (List.pairwise_lt_range.filter _))
  rintro first second lower _ _ foundFirst foundSecond start rfl other rfl
  rwa [(returnStart?_eq_some.mp foundFirst).1, (returnStart?_eq_some.mp foundSecond).1]

include settled returning in
theorem follows_of_returnPlan : machine.Follows plan returns where
  ascend := ascending_returns returning
  ordinary start member := (returns_fit returning member).1
  inRange start member := (returns_fit returning member).2
  settled start member := by
    obtain ⟨position, _, isChosen, found⟩ := (returnPlan_facts returning).2 start member
    rw [(returnStart?_eq_some.mp found).1]
    exact settled position isChosen

end Returning

theorem settled_of_chosenBy {sheet : Nat} (exactly : plan.Exact machine [sheet])
    (planned : machine.peelPlan sheet = .ok plan) (position : Nat)
    (isChosen : machine.chosenBy plan sheet position = true) :
    ∀ needle ∈ plan.moves, position ≠ needle.position := by
  rintro needle moves rfl
  have selected := (chosenBy_iff planned (exactly.inRange needle moves)).mp isChosen
  exact selected.notBlocked ((exactly.moves needle).mp moves) rfl

theorem settled_of_contains (exactly : plan.Exact machine sheets) (position : Nat)
    (isChosen : sheets.contains (machine.sheetOf position) = true) :
    ∀ needle ∈ plan.moves, position ≠ needle.position := by
  rintro needle moves rfl
  exact exactly.inactive needle moves (List.contains_iff_mem.mp isChosen)

def scattered : Machine :=
  (initial rackable).afterAll [.apply (.inhook ⟨1⟩), .apply (.tuck (.front 0) [⟨1⟩] none),
    .apply (.tuck (.front 1) [⟨1⟩] none), .apply (.gauge 2), .apply (.peel 0),
    .apply (.layerToBack 0), .apply (.setLayer 1 0), .apply (.peel 1), .apply (.rack (.ofNat 1))]

end Machine

end VBed
