import VBed.Proofs.Shortest
import VBed.Proofs.Unloading

/-!
Transfers between needles. Whole numbers up to two to the power of fifty-three are exact, so on beds
of so many needles two positions face each other just when the racking is their difference. A
transfer is reversible while its target is empty, for neither needle is less clear after it.
-/

namespace VBed

namespace Binary64

def IsWhole (number : Binary64) (whole : Int) : Prop :=
  number.place? = some (whole * one)

instance (number : Binary64) (whole : Int) : Decidable (number.IsWhole whole) :=
  inferInstanceAs (Decidable (_ = _))

theorem isWhole_unique {number : Binary64} {first second : Int} (isFirst : number.IsWhole first)
    (isSecond : number.IsWhole second) : first = second := by
  have places : first * one = second * one := Option.some.inj (isFirst.symm.trans isSecond)
  exact Int.eq_of_mul_eq_mul_right (Int.natCast_ne_zero.mpr (Nat.ne_of_gt one_pos)) places

theorem representable_whole {number : Nat} (small : number ≤ 2 ^ 53) :
    Representable (number * one) := by
  rw [one_eq]
  refine shifted_representable small ?_
  rw [beyond, power_eq, one_eq]
  exact Nat.mul_lt_mul_of_pos_right (Nat.lt_of_le_of_lt small (by decide +kernel))
    (Nat.two_pow_pos _)

theorem round_whole (negative : Bool) {number : Nat} (small : number ≤ 2 ^ 53) :
    round negative (number * one) 1 =
      .finite negative ⟨number * one, representable_whole small⟩ := by
  have representable := representable_whole small
  rw [round, nearest_representable representable, ofUnits, dif_pos representable]

theorem signed_natAbs (number : Int) : signed (decide (number < 0)) number.natAbs = number := by
  by_cases negative : number < 0
  · simp only [signed, negative, decide_true, if_true]
    omega
  · simp only [signed, negative, decide_false, Bool.false_eq_true, if_false]
    omega

theorem sub_ofNat {left right : Nat} (leftSmall : left ≤ 2 ^ 53) (rightSmall : right ≤ 2 ^ 53) :
    ((ofNat left).sub (ofNat right)).IsWhole (left - right) := by
  have difference : signed false (left * one) - signed false (right * one) =
      ((left : Int) - right) * one := by
    simp only [signed, Bool.false_eq_true, if_false, Int.natCast_mul, Int.sub_mul]
  have magnitude : (((left : Int) - right) * one).natAbs = ((left : Int) - right).natAbs * one := by
    rw [Int.natAbs_mul, Int.natAbs_natCast]
  have small : ((left : Int) - right).natAbs ≤ 2 ^ 53 := by omega
  rw [ofNat, ofNat, round_whole false leftSmall, round_whole false rightSmall]
  simp only [sub, difference]
  by_cases none : ((left : Int) - right) * one = 0
  · rw [if_pos none, IsWhole, none]
    rfl
  · rw [if_neg none, magnitude, round_whole _ small]
    change some (signed _ (((left : Int) - right).natAbs * one)) = _
    rw [← magnitude, signed_natAbs]

end Binary64

namespace Machine

variable {machine next : Machine} {start target : Needle}

def frontPosition (start target : Needle) : Nat :=
  match start.side with
  | .front => start.position
  | .back => target.position

def backPosition (start target : Needle) : Nat :=
  match start.side with
  | .front => target.position
  | .back => start.position

structure Transferable (machine : Machine) (start target : Needle) : Prop where
  startInRange : start.position < machine.needleCount
  targetInRange : target.position < machine.needleCount
  opposite : start.side ≠ target.side
  startClear : machine.Clear start
  targetClear : machine.Clear target
  facing : machine.racking.IsWhole (frontPosition start target - backPosition start target)

theorem faces_iff {front back : Nat} (frontSmall : front ≤ 2 ^ 53) (backSmall : back ≤ 2 ^ 53) :
    machine.faces front back = true ↔ machine.racking.IsWhole (front - back) := by
  have exact : (rackingBetween front back).place? = some (((front : Int) - back) * Binary64.one) :=
    Binary64.sub_ofNat frontSmall backSmall
  rw [faces, Binary64.equal, exact, Binary64.IsWhole]
  generalize ((front : Int) - back) * Binary64.one = difference
  cases machine.racking.place? with
  | none => simp
  | some place => simp

theorem checkFacing_iff (startSmall : start.position ≤ 2 ^ 53)
    (targetSmall : target.position ≤ 2 ^ 53) :
    machine.checkFacing start target = .ok () ↔
      machine.racking.IsWhole (frontPosition start target - backPosition start target) := by
  rw [checkFacing_eq_ok, frontPosition, backPosition]
  cases start.side with
  | front => exact faces_iff startSmall targetSmall
  | back => exact faces_iff targetSmall startSmall

theorem checkTransfer_iff (shaped : machine.Shaped) (small : machine.needleCount ≤ 2 ^ 53) :
    machine.checkTransfer start target = .ok () ↔ machine.Transferable start target := by
  rw [checkTransfer_eq_ok shaped]
  constructor
  · rintro ⟨startInRange, targetInRange, opposite, targetClear, startClear, facing⟩
    exact ⟨startInRange, targetInRange, opposite, startClear, targetClear,
      (checkFacing_iff (by omega) (by omega)).mp facing⟩
  · rintro ⟨startInRange, targetInRange, opposite, startClear, targetClear, facing⟩
    exact ⟨startInRange, targetInRange, opposite, targetClear, startClear,
      (checkFacing_iff (by omega) (by omega)).mpr facing⟩

theorem xfer_eq_ok (shaped : machine.Shaped) {loops : List LoopId} :
    xfer start target machine = .ok loops next ↔
      machine.checkTransfer start target = .ok () ∧ machine.loops start = loops ∧
        machine.transferred start target = next := by
  constructor
  · intro ran
    have checked := (decided_xfer shaped start target).passed ran
    rw [xfer_done shaped checked] at ran
    cases ran
    exact ⟨checked, rfl, rfl⟩
  · rintro ⟨checked, rfl, rfl⟩
    exact xfer_done shaped checked

theorem positions_reversed (opposite : start.side ≠ target.side) :
    frontPosition target start = frontPosition start target ∧
      backPosition target start = backPosition start target := by
  obtain ⟨startSide, _, _⟩ := start
  obtain ⟨targetSide, _, _⟩ := target
  cases startSide <;> cases targetSide <;>
    first | exact ⟨rfl, rfl⟩ | exact absurd rfl opposite

theorem loops_exchanged (shaped : machine.Shaped)
    (startInRange : start.position < machine.needleCount)
    (targetInRange : target.position < machine.needleCount) (needle : Needle) :
    (machine.transferred start target).loops needle =
      if needle = target then machine.loops target ++ machine.loops start
      else if needle = start then [] else machine.loops needle := by
  rw [loops_transferred, loops_moved shaped startInRange targetInRange]

theorem Transferable.clear_reversed (shaped : machine.Shaped)
    (transferable : machine.Transferable start target) :
    (machine.transferred start target).Clear start ∧
      (machine.transferred start target).Clear target := by
  have loops := loops_exchanged shaped transferable.startInRange transferable.targetInRange
  -- The slider at a needle of the one bed is not the needle of the other.
  have apart : ∀ first second : Needle, first.side ≠ second.side → first.asSlider ≠ second := by
    rintro first second sides rfl
    exact sides rfl
  constructor
  · rcases transferable.startClear with isSlider | empty
    · exact Or.inl isSlider
    · refine Or.inr ?_
      rw [loops, if_neg (apart start target transferable.opposite), empty]
      split <;> rfl
  · by_cases isSlider : target.slider = true
    · exact Or.inl isSlider
    · have empty := transferable.targetClear.resolve_left isSlider
      have notTarget : target.asSlider ≠ target :=
        fun same => isSlider (congrArg Needle.slider same).symm
      refine Or.inr ?_
      rw [loops, if_neg notTarget, if_neg (apart target start transferable.opposite.symm), empty]

theorem Transferable.reversed (shaped : machine.Shaped)
    (transferable : machine.Transferable start target) :
    (machine.transferred start target).Transferable target start := by
  obtain ⟨startClear, targetClear⟩ := transferable.clear_reversed shaped
  obtain ⟨front, back⟩ := positions_reversed transferable.opposite
  refine ⟨?_, ?_, transferable.opposite.symm, targetClear, startClear, ?_⟩
  · rw [needleCount_transferred]
    exact transferable.targetInRange
  · rw [needleCount_transferred]
    exact transferable.startInRange
  · rw [racking_transferred, front, back]
    exact transferable.facing

theorem bed_ext (shaped : machine.Shaped) (nextShaped : next.Shaped)
    (sameCount : next.needleCount = machine.needleCount)
    (same : ∀ needle, next.loops needle = machine.loops needle) (side : Side) :
    next.bed side = machine.bed side := by
  have slots : ∀ slider, (next.bed side).slots slider = (machine.bed side).slots slider := by
    intro slider
    apply Array.ext_getElem?
    intro position
    by_cases inRange : position < machine.needleCount
    · have here : (Needle.mk side position slider).position < next.needleCount := by rwa [sameCount]
      have found := at?_of_inRange nextShaped here
      rw [same] at found
      exact found.trans (at?_of_inRange shaped inRange).symm
    · rw [Array.getElem?_eq_none, Array.getElem?_eq_none]
      · rw [shaped.slots]
        omega
      · rw [nextShaped.slots]
        omega
  have sides : (next.bed side).side = (machine.bed side).side := by
    rw [nextShaped.side, shaped.side]
  have needles : (next.bed side).needles = (machine.bed side).needles := slots false
  have sliders : (next.bed side).sliders = (machine.bed side).sliders := slots true
  generalize next.bed side = nextBed at sides needles sliders
  generalize machine.bed side = bed at sides needles sliders
  cases bed
  cases nextBed
  cases sides
  cases needles
  cases sliders
  rfl

theorem bed_returned (shaped : machine.Shaped) (transferable : machine.Transferable start target)
    (empty : machine.loops target = []) (side : Side) :
    ((machine.transferred start target).transferred target start).bed side = machine.bed side := by
  have middleShaped := shaped.transferred start target
  refine bed_ext shaped (middleShaped.transferred target start) ?_ (fun needle => ?_) side
  · rw [needleCount_transferred, needleCount_transferred]
  · have differs : start ≠ target := fun same => transferable.opposite (congrArg Needle.side same)
    have reversed := transferable.reversed shaped
    rw [loops_exchanged middleShaped reversed.startInRange reversed.targetInRange]
    simp only [loops_exchanged shaped transferable.startInRange transferable.targetInRange]
    by_cases atStart : needle = start
    · simp [atStart, differs, empty]
    · by_cases atTarget : needle = target
      · simp [atTarget, Ne.symm differs, empty]
      · simp [atStart, atTarget]

structure Exchanged (machine next : Machine) (start target : Needle) : Prop where
  arrives : next.loops target = machine.loops target ++ machine.loops start
  leaves : next.loops start = []
  others : ∀ needle, needle ≠ start → needle ≠ target →
    next.loops needle = machine.loops needle
  racking : next.racking = machine.racking
  setting : machine.SameSetting next

/-- Transfers succeed between clear needles of the two beds that face each other at the racking, one
with one. They move all loops of a needle, and those to an empty needle can be undone. -/
structure GatesTransfers (machine : Machine) : Prop where
  succeeds : ∀ start target, (∃ loops next, xfer start target machine = .ok loops next) ↔
    machine.Transferable start target
  oneToOne : ∀ start target otherStart otherTarget,
    (∃ loops next, xfer start target machine = .ok loops next) →
      (∃ loops next, xfer otherStart otherTarget machine = .ok loops next) →
        (frontPosition start target = frontPosition otherStart otherTarget ↔
          backPosition start target = backPosition otherStart otherTarget)
  moves : ∀ start target loops next, xfer start target machine = .ok loops next →
    loops = machine.loops start ∧ machine.Exchanged next start target
  reverses : ∀ start target loops next, xfer start target machine = .ok loops next →
    machine.loops target = [] →
      ∃ last, xfer target start next = .ok loops last ∧ last.frontBed = machine.frontBed ∧
        last.backBed = machine.backBed

theorem gatesTransfers_of_reachable (reachable : machine.Reachable)
    (small : machine.needleCount ≤ 2 ^ 53) : machine.GatesTransfers := by
  have shaped := reachable.sound.shaped
  have succeeds : ∀ start target, (∃ loops next, xfer start target machine = .ok loops next) ↔
      machine.Transferable start target := by
    intro start target
    rw [← checkTransfer_iff shaped small]
    simp only [xfer_eq_ok shaped]
    constructor
    · rintro ⟨_, _, checked, _⟩
      exact checked
    · exact fun checked => ⟨_, _, checked, rfl, rfl⟩
  refine ⟨succeeds, ?_, ?_, ?_⟩
  · intro start target otherStart otherTarget ran otherRan
    have facing := ((succeeds start target).mp ran).facing
    have otherFacing := ((succeeds otherStart otherTarget).mp otherRan).facing
    have differences := Binary64.isWhole_unique facing otherFacing
    omega
  · intro start target loops next ran
    have transferable := (succeeds start target).mp ⟨loops, next, ran⟩
    have differs : start ≠ target := fun same => transferable.opposite (congrArg Needle.side same)
    obtain ⟨_, rfl, rfl⟩ := (xfer_eq_ok shaped).mp ran
    have held := loops_exchanged shaped transferable.startInRange transferable.targetInRange
    refine ⟨rfl, ?_, ?_, fun needle notStart notTarget => ?_, racking_transferred start target,
      sameSetting_transferred machine start target⟩
    · rw [held, if_pos rfl]
    · rw [held, if_neg differs, if_pos rfl]
    · rw [held, if_neg notTarget, if_neg notStart]
  · intro start target loops next ran empty
    have transferable := (succeeds start target).mp ⟨loops, next, ran⟩
    obtain ⟨_, rfl, rfl⟩ := (xfer_eq_ok shaped).mp ran
    have middleShaped := shaped.transferred start target
    have checked := (checkTransfer_iff middleShaped (by rwa [needleCount_transferred])).mpr
      (transferable.reversed shaped)
    have arrived : (machine.transferred start target).loops target = machine.loops start := by
      rw [loops_exchanged shaped transferable.startInRange transferable.targetInRange, if_pos rfl,
        empty, List.nil_append]
    exact ⟨_, (xfer_eq_ok middleShaped).mpr ⟨checked, arrived, rfl⟩,
      bed_returned shaped transferable empty .front, bed_returned shaped transferable empty .back⟩

def rackedByOne : Machine :=
  (initial rackable).afterAll [.apply (.inhook ⟨1⟩), .apply (.tuck (.front 1) [⟨1⟩] none),
    .apply (.align 1 0)]

theorem gatesTransfers_rackedByOne :
    rackedByOne.racking.IsWhole 1 ∧ rackedByOne.loops (.front 1) = [⟨0⟩] ∧
      (rackedByOne.afterAll [.apply (.xfer (.front 1) (.back 0))]).loops (.back 0) = [⟨0⟩] ∧
      rackedByOne.GatesTransfers := by
  have valid : rackable.check = .ok () := by
    simp only [Spec.check, throw_bind, refusal_eq_ok, pure_eq_ok]
    decide +kernel
  have reachable : rackedByOne.Reachable :=
    (Reachable.start (by decide) (of_eq_ok.mpr ⟨valid, rfl⟩)).afterAll _
  exact ⟨by decide +kernel, by decide +kernel, by decide +kernel,
    gatesTransfers_of_reachable reachable (by decide +kernel)⟩

end Machine

end VBed
