import Mathlib.Algebra.Group.Int.Defs
import VBed.Proofs.Safety
import VBed.Proofs.Transfers

/-!
The needle that a needle faces. The position across is computed in signed machine words from the
racking rounded down, so the answer is right for the needles on the beds as long as a bed and the
racking together fit the words. Loops can go to the answer where the racking is a whole number.
-/

namespace VBed

namespace Text

def IsSignedWord (number : Int) : Prop :=
  -2 ^ 63 ≤ number ∧ number < 2 ^ 63

instance (number : Int) : Decidable (IsSignedWord number) :=
  inferInstanceAs (Decidable (_ ∧ _))

theorem signedWord_eq_bmod (number : Int) : signedWord number = number.bmod (2 ^ 64) := rfl

@[simp] theorem signedWord_add (number other : Int) :
    signedWord (signedWord number + other) = signedWord (number + other) :=
  Int.bmod_add_bmod

@[simp] theorem signedWord_sub (number other : Int) :
    signedWord (signedWord number - other) = signedWord (number - other) :=
  Int.bmod_sub_bmod

theorem isSignedWord_signedWord (number : Int) : IsSignedWord (signedWord number) := by
  have atLeast := Int.le_bmod (x := number) (m := 2 ^ 64) (by decide)
  have below := Int.bmod_lt (x := number) (m := 2 ^ 64) (by decide)
  rw [signedWord_eq_bmod, IsSignedWord]
  omega

theorem signedWord_eq_iff {number : Int} : signedWord number = number ↔ IsSignedWord number := by
  constructor
  · intro same
    rw [← same]
    exact isSignedWord_signedWord number
  · rintro ⟨atLeast, below⟩
    rw [signedWord_eq_bmod]
    exact Int.bmod_eq_of_le (by omega) (by omega)

/-- What leaves the words at their upper end comes back at the lower one. -/
theorem signedWord_above {number : Int} (above : 2 ^ 63 ≤ number) (below : number < 2 ^ 64) :
    signedWord number < 0 := by
  have turned : (number - 2 ^ 64).bmod (2 ^ 64) = number - 2 ^ 64 :=
    Int.bmod_eq_of_le (by omega) (by omega)
  have same : number.bmod (2 ^ 64) = (number - 2 ^ 64).bmod (2 ^ 64) :=
    (Int.sub_bmod_right number (2 ^ 64)).symm
  rw [signedWord_eq_bmod, same, turned]
  omega

end Text

namespace Binary64

variable {number : Binary64} {whole : Int}

def IsFloor (number : Binary64) (whole : Int) : Prop :=
  ∃ place ∈ number.place?, whole * one ≤ place ∧ place < (whole + 1) * one

instance (number : Binary64) (whole : Int) : Decidable (number.IsFloor whole) :=
  inferInstanceAs (Decidable (∃ _ ∈ _, _))

def AtMost (number : Binary64) (limit : Nat) : Prop :=
  ∃ place ∈ number.place?, place ≤ (limit : Int) * one

theorem cast_one_pos : (0 : Int) < one :=
  Int.natCast_pos.mpr one_pos

theorem natAbs_signed (negative : Bool) (units : Nat) : (signed negative units).natAbs = units := by
  cases negative with
  | false => exact Int.natAbs_natCast units
  | true => exact (Int.natAbs_neg units).trans (Int.natAbs_natCast units)

theorem place?_abs {place : Int} (found : number.place? = some place) :
    number.abs.place? = some (place.natAbs : Int) := by
  obtain ⟨negative, magnitude⟩ | negative | _ := number
  · cases found
    rw [natAbs_signed]
    rfl
  · cases found
    rw [natAbs_signed]
    rfl
  · cases found

theorem isFloor_iff_ediv {place : Int} (found : number.place? = some place) :
    number.IsFloor whole ↔ place / one = whole := by
  rw [IsFloor, Int.ediv_eq_iff_of_pos cast_one_pos, Int.add_mul, Int.one_mul]
  simp only [found, Option.mem_some, exists_eq_left']

theorem isFloor_unique {other : Int} (isFloor : number.IsFloor whole)
    (otherFloor : number.IsFloor other) : whole = other := by
  have ⟨place, found, _⟩ := isFloor
  exact ((isFloor_iff_ediv found).mp isFloor).symm.trans ((isFloor_iff_ediv found).mp otherFloor)

theorem exists_isFloor (isFinite : number.isFinite = true) : ∃ whole, number.IsFloor whole := by
  obtain ⟨negative, magnitude⟩ | _ | _ := number
  · exact ⟨_, (isFloor_iff_ediv rfl).mpr rfl⟩
  · cases isFinite
  · cases isFinite

theorem IsWhole.isFloor (isWhole : number.IsWhole whole) : number.IsFloor whole := by
  rw [isFloor_iff_ediv isWhole]
  exact Int.mul_ediv_cancel _ (Int.ne_of_gt cast_one_pos)

theorem floorWord_eq (isFinite : number.isFinite = true) (isFloor : number.IsFloor whole) :
    number.floorWord = max (-2 ^ 63) (min (2 ^ 63 - 1) whole) := by
  obtain ⟨negative, magnitude⟩ | _ | _ := number
  · rw [← (isFloor_iff_ediv rfl).mp isFloor, floorWord,
      Int.fdiv_eq_ediv_of_nonneg _ (Int.le_of_lt cast_one_pos)]
    rfl
  · cases isFinite
  · cases isFinite

end Binary64

def Needle.across (needle : Needle) (distance : Int) : Int :=
  match needle.side with
  | .front => needle.position - distance
  | .back => needle.position + distance

/-- Two rackings move a needle to the same side. -/
theorem Needle.across_both (needle : Needle) (first second : Int) :
    needle.across first = needle.position - first ∧
        needle.across second = needle.position - second ∨
      needle.across first = needle.position + first ∧
        needle.across second = needle.position + second := by
  simp only [across]
  cases needle.side
  · exact Or.inl ⟨rfl, rfl⟩
  · exact Or.inr ⟨rfl, rfl⟩

namespace Machine

open Text (IsSignedWord)

variable {machine : Machine} {needle target start : Needle} {slider : Bool} {whole : Int}

def wordAcross (machine : Machine) (needle : Needle) : Int :=
  Text.signedWord (needle.across machine.racking.floorWord)

theorem facing_eq (machine : Machine) (needle : Needle) (slider : Bool) :
    machine.facing needle slider =
      if 0 ≤ machine.wordAcross needle ∧ machine.wordAcross needle < machine.needleCount then
        .ok ⟨needle.side.opposite, (machine.wordAcross needle).toNat, slider⟩
      else .error (.needleOutOfRange (machine.wordAcross needle) machine.needleCount) := by
  have checked : machine.facing needle slider =
      if machine.wordAcross needle < 0 ∨
          (machine.needleCount : Int) ≤ machine.wordAcross needle then
        .error (.needleOutOfRange (machine.wordAcross needle) machine.needleCount)
      else .ok ⟨needle.side.opposite, (machine.wordAcross needle).toNat, slider⟩ := by
    obtain ⟨side, position, kind⟩ := needle
    cases side
    all_goals
      simp only [facing, wordAcross, Needle.across, Text.signedWord_add, Text.signedWord_sub]
      rfl
  rw [checked]
  generalize machine.wordAcross needle = across
  by_cases inRange : 0 ≤ across ∧ across < machine.needleCount
  · rw [if_pos inRange, if_neg (by omega)]
  · rw [if_neg inRange, if_pos (by omega)]

theorem facing_eq_ok : machine.facing needle slider = .ok target ↔
    target.side = needle.side.opposite ∧ target.slider = slider ∧
      target.position < machine.needleCount ∧ machine.wordAcross needle = target.position := by
  obtain ⟨side, position, kind⟩ := target
  rw [facing_eq]
  generalize machine.wordAcross needle = across
  split
  · simp only [Except.ok.injEq, Needle.mk.injEq]
    constructor
    · rintro ⟨rfl, rfl, rfl⟩
      exact ⟨rfl, rfl, by omega, by omega⟩
    · rintro ⟨rfl, rfl, _, _⟩
      exact ⟨rfl, by omega, rfl⟩
  · simp only [reduceCtorEq, false_iff]
    rintro ⟨_, _, _, _⟩
    omega

/-- Whoever looks back from the needle across sees the place where the first needle is said to
be. -/
theorem wordAcross_back (answered : machine.facing needle slider = .ok target) :
    machine.wordAcross target = Text.signedWord needle.position := by
  obtain ⟨side, _, _, across⟩ := facing_eq_ok.mp answered
  obtain ⟨_, position, _⟩ := needle
  obtain ⟨_, other, _⟩ := target
  subst side
  change Text.signedWord _ = (other : Int) at across
  change Text.signedWord _ = _
  cases ‹Side› with
  | front =>
      simp only [Needle.across, Side.opposite] at across ⊢
      rw [← across, Text.signedWord_add, Int.sub_add_cancel]
  | back =>
      simp only [Needle.across, Side.opposite] at across ⊢
      rw [← across, Text.signedWord_sub, Int.add_sub_cancel]

theorem facing_back (answered : machine.facing needle slider = .ok target) (kind : Bool) :
    machine.facing target kind =
      if 0 ≤ Text.signedWord needle.position ∧
          Text.signedWord needle.position < machine.needleCount then
        .ok ⟨needle.side, (Text.signedWord needle.position).toNat, kind⟩
      else .error (.needleOutOfRange (Text.signedWord needle.position) machine.needleCount) := by
  have opposite := (facing_eq_ok.mp answered).1
  rw [facing_eq, wordAcross_back answered, opposite, Side.opposite_opposite]

theorem signedWord_onBed_iff {position count : Nat} :
    (0 ≤ Text.signedWord position ∧ Text.signedWord position < count) ∧
        (Text.signedWord position).toNat = position ↔
      position < count ∧ IsSignedWord position := by
  rw [← Text.signedWord_eq_iff]
  constructor
  · rintro ⟨⟨notNegative, below⟩, same⟩
    omega
  · rintro ⟨below, same⟩
    rw [same]
    omega

theorem facing_back_iff (answered : machine.facing needle slider = .ok target) :
    machine.facing target needle.slider = .ok needle ↔
      needle.position < machine.needleCount ∧ IsSignedWord needle.position := by
  obtain ⟨side, position, kind⟩ := needle
  rw [facing_back answered, ← signedWord_onBed_iff]
  split
  · rename_i inRange
    simp [inRange]
  · rename_i outside
    simp [outside]

structure AcrossInWords (machine : Machine) (distance : Int) : Prop where
  racking : IsSignedWord distance
  start : ∀ needle : Needle, needle.position < machine.needleCount → IsSignedWord needle.position
  across : ∀ needle : Needle, needle.position < machine.needleCount →
    IsSignedWord (needle.across distance)

theorem acrossInWords_iff (positive : 0 < machine.needleCount) :
    machine.AcrossInWords whole ↔ whole.natAbs + machine.needleCount ≤ 2 ^ 63 := by
  constructor
  · intro inWords
    have last : machine.needleCount - 1 < machine.needleCount := by omega
    have front := inWords.across (.front (machine.needleCount - 1)) last
    have back := inWords.across (.back (machine.needleCount - 1)) last
    have first := inWords.across (.front 0) positive
    simp only [IsSignedWord, Needle.across, Needle.front, Needle.back] at front back first
    omega
  · intro fits
    refine ⟨?_, fun needle inRange => ?_, fun needle inRange => ?_⟩
    · simp only [IsSignedWord]
      omega
    · simp only [IsSignedWord]
      omega
    · have across := needle.across_both whole whole
      simp only [IsSignedWord]
      omega

section Floor

variable (isFinite : machine.racking.isFinite = true) (isFloor : machine.racking.IsFloor whole)
  (inRange : needle.position < machine.needleCount)

include isFinite isFloor inRange

theorem wordAcross_of_inWords (inWords : machine.AcrossInWords whole) :
    machine.wordAcross needle = needle.across whole := by
  have kept : machine.racking.floorWord = whole := by
    have ⟨atLeast, below⟩ := inWords.racking
    rw [Binary64.floorWord_eq isFinite isFloor]
    omega
  rw [wordAcross, kept]
  exact Text.signedWord_eq_iff.mpr (inWords.across needle inRange)

/-- A racking beyond the words takes no needle to another, however it is cut down to a word. -/
theorem wordAcross_eq_iff (small : machine.needleCount < 2 ^ 63) {position : Nat}
    (otherInRange : position < machine.needleCount) :
    machine.wordAcross needle = position ↔ needle.across whole = position := by
  have word := Binary64.floorWord_eq isFinite isFloor
  have across := needle.across_both machine.racking.floorWord whole
  rw [wordAcross]
  generalize machine.racking.floorWord = nearest at word across ⊢
  by_cases above : 2 ^ 63 ≤ needle.across nearest
  · have negative := Text.signedWord_above above (by omega)
    omega
  · rw [Text.signedWord_eq_iff.mpr ⟨by omega, by omega⟩]
    omega

end Floor

theorem facing_iff_isFloor (isFinite : machine.racking.isFinite = true)
    (small : machine.needleCount < 2 ^ 63) (startInRange : start.position < machine.needleCount)
    (targetInRange : target.position < machine.needleCount) (opposite : start.side ≠ target.side) :
    machine.facing start target.slider = .ok target ↔
      machine.racking.IsFloor (frontPosition start target - backPosition start target) := by
  obtain ⟨whole, isFloor⟩ := Binary64.exists_isFloor isFinite
  have sides : target.side = start.side.opposite := by
    revert opposite
    cases start.side <;> cases target.side <;> simp [Side.opposite]
  have difference : start.across whole = target.position ↔
      whole = frontPosition start target - backPosition start target := by
    simp only [Needle.across, frontPosition, backPosition]
    cases start.side <;> simp only <;> omega
  have floors : machine.racking.IsFloor (frontPosition start target - backPosition start target) ↔
      whole = frontPosition start target - backPosition start target :=
    ⟨Binary64.isFloor_unique isFloor, fun same => same ▸ isFloor⟩
  rw [facing_eq_ok, wordAcross_eq_iff isFinite isFloor startInRange small targetInRange, difference,
    floors]
  simp only [sides, targetInRange, true_and]

def mismatch (machine : Machine) (start target : Needle) : Fault :=
  match start.side with
  | .front => .rackingMismatch machine.racking start target
  | .back => .rackingMismatch machine.racking target start

theorem checkFacing_refuses (refused : machine.checkFacing start target ≠ .ok ()) :
    machine.checkFacing start target = .error (machine.mismatch start target) := by
  have apart := mt checkFacing_eq_ok.mpr refused
  rw [checkFacing, mismatch]
  cases side : start.side with
  | front =>
      simp only [side] at apart ⊢
      simp only [apart]
      rfl
  | back =>
      simp only [side] at apart ⊢
      simp only [apart]
      rfl

/-- A needle faces the one that the racking, rounded down, takes it to. Loops can go to that needle
and to no other, and only where the racking is a whole number. -/
structure FacesWhole (machine : Machine) : Prop where
  answers : ∀ start slider target, start.position < machine.needleCount →
    machine.facing start slider = .ok target →
      start.side ≠ target.side ∧ target.slider = slider ∧ target.position < machine.needleCount ∧
        machine.racking.IsFloor (frontPosition start target - backPosition start target)
  accepts : ∀ start target, start.position < machine.needleCount →
    target.position < machine.needleCount → start.side ≠ target.side →
      (machine.checkFacing start target = .ok () ↔
        machine.facing start target.slider = .ok target ∧ ∃ whole, machine.racking.IsWhole whole)
  refuses : ∀ start slider target, start.position < machine.needleCount →
    machine.facing start slider = .ok target → (¬∃ whole, machine.racking.IsWhole whole) →
      machine.checkFacing start target = .error (machine.mismatch start target)

theorem opposite_of_facing (answered : machine.facing start slider = .ok target) :
    start.side ≠ target.side := by
  rw [(facing_eq_ok.mp answered).1]
  cases start.side <;> decide

theorem facesWhole_of_reachable (reachable : machine.Reachable)
    (small : machine.needleCount ≤ 2 ^ 53) : machine.FacesWhole := by
  have isFinite := reachable.configured.racked.1
  have answers : ∀ start target, start.position < machine.needleCount →
      target.position < machine.needleCount → start.side ≠ target.side →
        (machine.facing start target.slider = .ok target ↔
          machine.racking.IsFloor (frontPosition start target - backPosition start target)) :=
    fun start target => facing_iff_isFloor isFinite (by omega)
  have accepts : ∀ start target, start.position < machine.needleCount →
      target.position < machine.needleCount → start.side ≠ target.side →
        (machine.checkFacing start target = .ok () ↔
          machine.facing start target.slider = .ok target ∧
            ∃ whole, machine.racking.IsWhole whole) := by
    intro start target startInRange targetInRange opposite
    rw [checkFacing_iff (by omega) (by omega),
      answers start target startInRange targetInRange opposite]
    constructor
    · exact fun isWhole => ⟨isWhole.isFloor, _, isWhole⟩
    · rintro ⟨isFloor, whole, isWhole⟩
      rwa [← Binary64.isFloor_unique isWhole.isFloor isFloor]
  refine ⟨?_, accepts, ?_⟩
  · intro start slider target inRange answered
    obtain ⟨_, rfl, targetInRange, _⟩ := facing_eq_ok.mp answered
    have opposite := opposite_of_facing answered
    exact ⟨opposite, rfl, targetInRange,
      (answers start target inRange targetInRange opposite).mp answered⟩
  · intro start slider target inRange answered fractional
    obtain ⟨_, rfl, targetInRange, _⟩ := facing_eq_ok.mp answered
    refine checkFacing_refuses fun checked => fractional ?_
    exact ((accepts start target inRange targetInRange (opposite_of_facing answered)).mp checked).2

theorem facesWhole_rackedByOne :
    rackedByOne.facing (.back 0) false = .ok (.front 1) ∧
      rackedByOne.checkFacing (.back 0) (.front 1) = .ok () ∧ rackedByOne.FacesWhole :=
  ⟨by decide +kernel, by decide +kernel,
    facesWhole_of_reachable (reachable_measured (by decide) (by decide) (by decide)
      (by decide +kernel) _) (by decide +kernel)⟩

def rackedByHalf : Machine :=
  (initial rackable).afterAll [.apply (.rack (.round false Binary64.one 2))]

/-- What a needle faces at a racking between two positions is no needle that loops can go to. -/
theorem facing_refused_rackedByHalf :
    rackedByHalf.Reachable ∧ rackedByHalf.needleCount = 2 ∧
      rackedByHalf.facing (.front 1) false = .ok (.back 1) ∧
      rackedByHalf.checkFacing (.front 1) (.back 1) =
        .error (.rackingMismatch (.round false Binary64.one 2) (.front 1) (.back 1)) :=
  ⟨reachable_measured (by decide) (by decide) (by decide) (by decide +kernel) _, by decide +kernel,
    by decide +kernel, by decide +kernel⟩

theorem fits_of_racked (racked : machine.racking.Within machine.spec.maxRack) {limit : Nat}
    (limited : machine.spec.maxRack.AtMost limit) (isFloor : machine.racking.IsFloor whole) :
    whole.natAbs ≤ limit := by
  obtain ⟨_, distance, bound, far, found, within⟩ := racked
  obtain ⟨place, same, atMost⟩ := limited
  obtain rfl : bound = place := Option.some.inj (found.symm.trans same)
  obtain ⟨units, atUnits, notAbove, below⟩ := isFloor
  obtain rfl : (units.natAbs : Int) = distance :=
    Option.some.inj ((Binary64.place?_abs atUnits).symm.trans far)
  have upper : whole * Binary64.one ≤ limit * Binary64.one := by omega
  have lower : -(limit : Int) * Binary64.one < (whole + 1) * Binary64.one := by
    rw [Int.neg_mul]
    omega
  have most := Int.le_of_mul_le_mul_right upper Binary64.cast_one_pos
  have least := Int.lt_of_mul_lt_mul_right lower (Int.le_of_lt Binary64.cast_one_pos)
  omega

/-- Where a bed and the racking together fit the signed words, each needle of the beds faces what
the exact numbers say. What is answered is always on the other bed, and it faces the needle that it
answers in turn where that one is on its bed. -/
structure FacesBack (machine : Machine) : Prop where
  inWords : ∀ whole, machine.racking.IsFloor whole →
    (machine.AcrossInWords whole ↔ whole.natAbs + machine.needleCount ≤ 2 ^ 63)
  limited : ∀ limit : Nat, machine.spec.maxRack.AtMost limit →
    limit + machine.needleCount ≤ 2 ^ 63 →
      ∀ whole, machine.racking.IsFloor whole → machine.AcrossInWords whole
  exact : ∀ whole, machine.racking.IsFloor whole → machine.AcrossInWords whole →
    ∀ needle slider, needle.position < machine.needleCount →
      machine.facing needle slider =
        if 0 ≤ needle.across whole ∧ needle.across whole < machine.needleCount then
          .ok ⟨needle.side.opposite, (needle.across whole).toNat, slider⟩
        else .error (.needleOutOfRange (needle.across whole) machine.needleCount)
  answers : ∀ needle slider target, machine.facing needle slider = .ok target →
    target.side = needle.side.opposite ∧ target.slider = slider ∧
      target.position < machine.needleCount
  turns : ∀ needle slider target, machine.facing needle slider = .ok target →
    (machine.facing target needle.slider = .ok needle ↔
      needle.position < machine.needleCount ∧ IsSignedWord needle.position)

theorem facesBack_of_reachable (reachable : machine.Reachable) : machine.FacesBack := by
  have racked := reachable.configured.racked
  have positive : 0 < machine.needleCount := by
    have valid := reachable.sound.shaped.valid
    simp only [Spec.check, throw_bind, refusal_eq_ok] at valid
    exact Nat.pos_of_ne_zero valid.1
  refine ⟨fun whole _ => acrossInWords_iff positive, ?_, ?_, ?_, ?_⟩
  · intro limit limited fits whole isFloor
    have near := fits_of_racked racked limited isFloor
    exact (acrossInWords_iff positive).mpr (by omega)
  · intro whole isFloor inWords needle slider inRange
    rw [facing_eq, wordAcross_of_inWords racked.1 isFloor inRange inWords]
  · intro needle slider target answered
    obtain ⟨side, kind, inRange, _⟩ := facing_eq_ok.mp answered
    exact ⟨side, kind, inRange⟩
  · intro needle slider target answered
    exact facing_back_iff answered

def rackedLeft : Machine :=
  (initial rackable).afterAll [.apply (.rack (.round true Binary64.one 2))]

theorem facesBack_rackedLeft :
    rackedLeft.racking.IsFloor (-1) ∧ rackedLeft.facing (.front 0) true = .ok (backSlider 1) ∧
      rackedLeft.facing (backSlider 1) false = .ok (.front 0) ∧
      rackedLeft.facing (.back 0) false = .error (.needleOutOfRange (-1) 2) ∧
      rackedLeft.FacesBack :=
  ⟨by decide +kernel, by decide +kernel, by decide +kernel, by decide +kernel,
    facesBack_of_reachable (reachable_measured (by decide) (by decide) (by decide)
      (by decide +kernel) _)⟩

def rackedFar : Machine :=
  (initial { twoNeedles with maxRack := .ofNat (2 ^ 63) }).afterAll
    [.apply (.rack (.neg (.ofNat (2 ^ 63))))]

/-- A word that is no position of a bed can be read as one before it, and faces a needle that does
not face it. At a racking beyond the words the position across is not computed. -/
theorem facing_offBed_rackedByOne :
    (rackedByOne.Reachable ∧ ¬2 ^ 64 - 1 < rackedByOne.needleCount ∧
      rackedByOne.facing (.back (2 ^ 64 - 1)) true = .ok (frontSlider 0) ∧
      rackedByOne.facing (frontSlider 0) false = .error (.needleOutOfRange (-1) 2)) ∧
    rackedFar.Reachable ∧ rackedFar.racking.IsFloor (-2 ^ 63) ∧
      ¬IsSignedWord ((Needle.front 0).across (-2 ^ 63)) ∧
      rackedFar.facing (.front 0) false = .error (.needleOutOfRange (-2 ^ 63) 2) :=
  ⟨⟨reachable_measured (by decide) (by decide) (by decide) (by decide +kernel) _,
      by decide +kernel, by decide +kernel, by decide +kernel⟩,
    reachable_measured (by decide) (by decide) (by decide) (by decide +kernel) _,
    by decide +kernel, by decide +kernel, by decide +kernel⟩

end Machine

end VBed
