import VBed.Proofs.Transfers

/-!
A split is a transfer with the needle knitted after it. The split checks both before it does
either: a transfer leaves the sliders clear just when they were clear before it and no loops end on
one, and it changes nothing else that knitting looks at.
-/

namespace VBed.Machine

variable {machine : Machine} {start target : Needle} {carriers : CarrierSet}

theorem slidersAreClear_transferred (shaped : machine.Shaped)
    (startInRange : start.position < machine.needleCount)
    (targetInRange : target.position < machine.needleCount) (ordinary : start.slider = false) :
    (machine.transferred start target).slidersAreClear = true ↔
      machine.slidersAreClear = true ∧ (target.slider = true → machine.loops start = []) := by
  have after := loops_exchanged shaped startInRange targetInRange
  have notStart : ∀ needle : Needle, needle.slider = true → needle ≠ start := by
    rintro needle isSlider rfl
    rw [ordinary] at isSlider
    cases isSlider
  rw [slidersAreClear_iff, slidersAreClear_iff]
  constructor
  · intro clear
    constructor
    · intro needle isSlider
      have empty := clear needle isSlider
      rw [after] at empty
      by_cases here : needle = target
      · rw [if_pos here] at empty
        rw [here, (List.append_eq_nil_iff.mp empty).1]
      · rwa [if_neg here, if_neg (notStart needle isSlider)] at empty
    · intro isSlider
      have empty := clear target isSlider
      rw [after, if_pos rfl] at empty
      exact (List.append_eq_nil_iff.mp empty).2
  · rintro ⟨clear, emptied⟩ needle isSlider
    rw [after]
    by_cases here : needle = target
    · subst here
      rw [if_pos rfl, clear needle isSlider, emptied isSlider, List.append_nil]
    · rw [if_neg here, if_neg (notStart needle isSlider), clear needle isSlider]

theorem checkSplit_iff (shaped : machine.Shaped) :
    machine.checkSplit start target carriers = .ok () ↔
      machine.checkTransfer start target = .ok () ∧
        (machine.transferred start target).checkMaking .knit start carriers = .ok () := by
  rw [checkSplit_eq_ok shaped]
  refine and_congr_right fun transfer => ?_
  obtain ⟨startInRange, targetInRange, _⟩ := (checkTransfer_eq_ok shaped).mp transfer
  rw [checkMaking_eq_ok shaped, checkMaking_eq_ok (shaped.transferred start target),
    needleCount_transferred, (sameSetting_transferred machine start target).carriers]
  constructor
  · rintro ⟨⟨inRange, ordinary, clear, inService⟩, emptied⟩
    exact ⟨inRange, ordinary,
      (slidersAreClear_transferred shaped startInRange targetInRange ordinary).mpr ⟨clear, emptied⟩,
      inService⟩
  · rintro ⟨inRange, ordinary, clearAfter, inService⟩
    obtain ⟨clear, emptied⟩ :=
      (slidersAreClear_transferred shaped startInRange targetInRange ordinary).mp clearAfter
    exact ⟨⟨inRange, ordinary, clear, inService⟩, emptied⟩

/-- Both ways end in the same state, for the needle that is knitted has given its loops away. -/
theorem split_eq_knit (sound : machine.Sound)
    (checked : machine.checkSplit start target carriers = .ok ()) :
    split start target carriers machine =
      knit start carriers (machine.transferred start target) := by
  have shaped := sound.shaped
  obtain ⟨transfer, making⟩ := (checkSplit_iff shaped).mp checked
  obtain ⟨startInRange, targetInRange, sides, _⟩ := (checkTransfer_eq_ok shaped).mp transfer
  have differs : start ≠ target := fun same => sides (congrArg Needle.side same)
  have middle := (sound.transferred differs startInRange targetInRange).sound
  have setting := sameSetting_transferred machine start target
  obtain ⟨yarns, fed, feeds, _, splits⟩ := split_done shaped sound.known checked
  obtain ⟨knitYarns, knitFed, knitFeeds, _, knits⟩ := knit_done middle.shaped middle.known making
  have emptied : (machine.transferred start target).loops start = [] := by
    rw [loops_transferred, loops_moved_start shaped startInRange targetInRange differs]
  rw [setting.carriers, feeds] at knitFeeds
  cases knitFeeds
  rw [splits, knits, emptied, setting.graph]

/-- A split is a transfer and then the knitting of the needle, or it is nothing. -/
structure SplitsAsOne (machine : Machine) : Prop where
  composed : ∀ start target carriers loops next,
    split start target carriers machine = .ok loops next ↔
      ∃ moved middle, xfer start target machine = .ok moved middle ∧
        knit start carriers middle = .ok loops next
  unchanged : ∀ start target carriers fault next,
    split start target carriers machine = .error fault next → next = machine

theorem splitsAsOne_of_reachable (reachable : machine.Reachable) : machine.SplitsAsOne := by
  have sound := reachable.sound
  have shaped := sound.shaped
  constructor
  · intro start target carriers loops next
    constructor
    · intro splits
      have checked := (decided_split shaped sound.known start target carriers).passed splits
      have transfer := ((checkSplit_iff shaped).mp checked).1
      exact ⟨_, _, xfer_done shaped transfer, (split_eq_knit sound checked).symm.trans splits⟩
    · rintro ⟨_, _, transfers, knits⟩
      obtain ⟨transfer, rfl, rfl⟩ := (xfer_eq_ok shaped).mp transfers
      obtain ⟨startInRange, targetInRange, sides, _⟩ := (checkTransfer_eq_ok shaped).mp transfer
      have differs : start ≠ target := fun same => sides (congrArg Needle.side same)
      have middle := (sound.transferred differs startInRange targetInRange).sound
      have making := (decided_knit middle.shaped middle.known start carriers).passed knits
      exact (split_eq_knit sound ((checkSplit_iff shaped).mpr ⟨transfer, making⟩)).trans knits
  · intro start target carriers fault next refused
    have decided := decided_split shaped sound.known start target carriers
    rw [refused] at decided
    exact decided.of_error.2

theorem splitsAsOne_tucked :
    let machine := (initial twoNeedles).afterAll [.apply (.inhook ⟨1⟩),
      .apply (.tuck (.front 0) [⟨1⟩, ⟨1⟩] none), .apply (.tuck (.back 0) [⟨1⟩] none)]
    let split := machine.afterAll [.apply (.split (.front 0) (.back 0) [⟨1⟩, ⟨1⟩] none)]
    split.loops (.front 0) = [⟨3⟩, ⟨4⟩] ∧ split.loops (.back 0) = [⟨2⟩, ⟨0⟩, ⟨1⟩] ∧
      machine.SplitsAsOne :=
  ⟨by decide +kernel, by decide +kernel, splitsAsOne_of_reachable (reachable_twoNeedles _)⟩

end VBed.Machine
