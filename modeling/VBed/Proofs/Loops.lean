import VBed.Machine.Work
import VBed.Proofs.Runs

/-!
The loops of a machine needle by needle. Every change of the beds puts loops in the place of those
on one needle, and what it does to the other needles follows from `loops_put`.
-/

namespace VBed

namespace Bed

@[simp] theorem side_put (bed : Bed) (needle : Needle) (loops : List LoopId) :
    (bed.put needle loops).side = bed.side := by
  simp only [put]
  split <;> rfl

@[simp] theorem size_slots_put (bed : Bed) (needle : Needle) (loops : List LoopId)
    (slider : Bool) : ((bed.put needle loops).slots slider).size = (bed.slots slider).size := by
  simp only [put, slots]
  split <;> split <;> simp

theorem getElem?_replaced (slots : Array (List LoopId)) (position other : Nat)
    (loops : List LoopId) :
    (slots.setIfInBounds position loops)[other]? =
      if other = position then slots[other]?.map fun _ => loops else slots[other]? := by
  rw [Array.getElem?_setIfInBounds]
  by_cases same : other = position
  · subst other
    by_cases inRange : position < slots.size
    · simp [inRange]
    · simp [Nat.le_of_not_lt inRange]
  · simp [same, Ne.symm same]

/-- Putting loops on a needle leaves the loops of all others. -/
theorem at?_put (bed : Bed) (needle other : Needle) (loops : List LoopId) :
    (bed.put needle loops).at? other =
      if other.position = needle.position ∧ other.slider = needle.slider then
        (bed.at? other).map fun _ => loops
      else bed.at? other := by
  simp only [at?, put, slots]
  cases needle.slider <;> cases other.slider <;> simp [getElem?_replaced]

theorem put_put (bed : Bed) (needle : Needle) (first second : List LoopId) :
    (bed.put needle first).put needle second = bed.put needle second := by
  simp only [put]
  split <;> simp [Array.setIfInBounds_setIfInBounds]

theorem loopsAt_eq_ok {bed : Bed} {needle : Needle} {loops : List LoopId} :
    bed.loopsAt needle = .ok loops ↔ bed.at? needle = some loops := by
  simp only [loopsAt]
  cases bed.at? needle <;> simp

theorem at?_isSome_iff {bed : Bed} {needle : Needle} :
    (bed.at? needle).isSome ↔ needle.position < (bed.slots needle.slider).size := by
  simp [at?]

theorem check_eq_ok {bed : Bed} {needle : Needle} :
    bed.check needle = .ok () ↔ needle.position < (bed.slots needle.slider).size := by
  rw [← at?_isSome_iff, check, bind_eq_ok]
  cases found : bed.at? needle <;> simp [loopsAt, found]

end Bed

namespace Machine

def loops (machine : Machine) (needle : Needle) : List LoopId :=
  ((machine.bed needle.side).at? needle).getD []

def put (machine : Machine) (needle : Needle) (loops : List LoopId) : Machine :=
  machine.withBed needle.side ((machine.bed needle.side).put needle loops)

def moved (machine : Machine) (start target : Needle) : Machine :=
  (machine.put start []).put target (machine.loops target ++ machine.loops start)

def onRecord (machine : Machine) (position : Nat) : Presence :=
  machine.record.getD position ⟨false, false⟩

def recorded (machine : Machine) (position : Nat) : Machine :=
  { machine with record := machine.record.setIfInBounds position (machine.presence position) }

structure Shaped (machine : Machine) : Prop where
  valid : machine.spec.check = .ok ()
  word : machine.needleCount < Text.wordCount
  side : ∀ side, (machine.bed side).side = side
  slots : ∀ side slider, ((machine.bed side).slots slider).size = machine.needleCount
  record : machine.record.size = machine.needleCount
  layers : machine.layers.size = machine.needleCount

section Bed

variable (machine : Machine)

theorem bed_withBed (side other : Side) (bed : Bed) :
    (machine.withBed side bed).bed other = if other = side then bed else machine.bed other := by
  cases side <;> cases other <;> rfl

@[simp] theorem spec_withBed (side : Side) (bed : Bed) :
    (machine.withBed side bed).spec = machine.spec := by
  cases side <;> rfl

@[simp] theorem needleCount_withBed (side : Side) (bed : Bed) :
    (machine.withBed side bed).needleCount = machine.needleCount := by
  cases side <;> rfl

@[simp] theorem graph_withBed (side : Side) (bed : Bed) :
    (machine.withBed side bed).graph = machine.graph := by
  cases side <;> rfl

@[simp] theorem record_withBed (side : Side) (bed : Bed) :
    (machine.withBed side bed).record = machine.record := by
  cases side <;> rfl

@[simp] theorem layers_withBed (side : Side) (bed : Bed) :
    (machine.withBed side bed).layers = machine.layers := by
  cases side <;> rfl

end Bed

/-- What a needle holds once loops are put on one of the needles. -/
theorem loops_put {machine : Machine} (shaped : machine.Shaped) {needle : Needle}
    (inRange : needle.position < machine.needleCount) (held : List LoopId) (other : Needle) :
    (machine.put needle held).loops other =
      if other = needle then held else machine.loops other := by
  have isSome : ((machine.bed needle.side).at? needle).isSome := by
    rw [Bed.at?_isSome_iff, shaped.slots]
    exact inRange
  simp only [put, loops, bed_withBed]
  by_cases sameSide : other.side = needle.side
  · simp only [sameSide, if_true, Bed.at?_put]
    by_cases same : other = needle
    · subst same
      obtain ⟨before, found⟩ := Option.isSome_iff_exists.mp isSome
      simp [found]
    · have differs : ¬(other.position = needle.position ∧ other.slider = needle.slider) := by
        intro ⟨position, slider⟩
        exact same (by cases other; cases needle; simp_all)
      simp [same, differs]
  · have differs : other ≠ needle := fun same => sameSide (by rw [same])
    simp [sameSide, differs]

theorem Shaped.put {machine : Machine} (shaped : machine.Shaped) (needle : Needle)
    (held : List LoopId) : (machine.put needle held).Shaped := by
  constructor
  · simpa [Machine.put] using shaped.valid
  · simpa [Machine.put] using shaped.word
  · intro side
    simp only [Machine.put, bed_withBed]
    split
    · rename_i same
      rw [Bed.side_put, shaped.side, same]
    · exact shaped.side side
  · intro side slider
    simp only [Machine.put, bed_withBed, needleCount_withBed]
    split
    · rw [Bed.size_slots_put, shaped.slots]
    · exact shaped.slots side slider
  · simpa [Machine.put] using shaped.record
  · simpa [Machine.put] using shaped.layers

structure Undisturbed (machine next : Machine) : Prop where
  spec : next.spec = machine.spec
  frontBed : next.frontBed = machine.frontBed
  backBed : next.backBed = machine.backBed
  graph : next.graph = machine.graph
  record : next.record = machine.record
  layers : next.layers.size = machine.layers.size

theorem Undisturbed.refl (machine : Machine) : machine.Undisturbed machine :=
  ⟨rfl, rfl, rfl, rfl, rfl, rfl⟩

theorem Undisturbed.bed {machine next : Machine} (same : machine.Undisturbed next) (side : Side) :
    next.bed side = machine.bed side := by
  cases side
  · exact same.frontBed
  · exact same.backBed

theorem Undisturbed.loops {machine next : Machine} (same : machine.Undisturbed next)
    (needle : Needle) : next.loops needle = machine.loops needle := by
  simp only [Machine.loops, same.bed]

theorem Undisturbed.needleCount {machine next : Machine} (same : machine.Undisturbed next) :
    next.needleCount = machine.needleCount := by
  rw [Machine.needleCount, same.spec]
  rfl

theorem Undisturbed.presence {machine next : Machine} (same : machine.Undisturbed next)
    (position : Nat) : next.presence position = machine.presence position := by
  simp only [Machine.presence, same.frontBed, same.backBed]

theorem Undisturbed.shaped {machine next : Machine} (same : machine.Undisturbed next)
    (shaped : machine.Shaped) : next.Shaped where
  valid := by rw [same.spec, shaped.valid]
  word := by rw [same.needleCount]; exact shaped.word
  side side := by rw [same.bed, shaped.side]
  slots side slider := by rw [same.bed, same.needleCount, shaped.slots]
  record := by rw [same.record, same.needleCount, shaped.record]
  layers := by rw [same.layers, same.needleCount, shaped.layers]

end Machine

end VBed
