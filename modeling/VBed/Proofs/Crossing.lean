import VBed.Proofs.Replay
import VBed.Proofs.Safety
import VBed.Proofs.SheetIsolation

/-!
What crossing does to the needles. Loops that cross arrive behind those of the opposite needle. Of
two needles that face each other at most one is crossed, so the crossings of a plan do not meet, and
each of them can be told from the machine before the first. The needles that a plan crosses are just
those whose loops block the sheets.
-/

namespace VBed

open Strict (Apart)

namespace Machine

variable {machine next : Machine} {plan : PeelPlan}

def SlidersEmptyAt (machine : Machine) (position : Nat) : Prop :=
  ∀ side, machine.loops ⟨side, position, true⟩ = []

theorem checkClear_ordinary (shaped : machine.Shaped) {needle : Needle}
    (ordinary : needle.slider = false) (inRange : needle.position < machine.needleCount) :
    machine.checkClear needle = .ok () ↔ machine.loops needle.asSlider = [] := by
  rw [checkClear_eq_ok shaped inRange, Clear, ordinary]
  simp

theorem slidersEmptyAt_iff {needle : Needle} :
    machine.SlidersEmptyAt needle.position ↔
      machine.loops needle.asSlider = [] ∧ machine.loops needle.opposite.asSlider = [] := by
  obtain ⟨side, position, slider⟩ := needle
  constructor
  · exact fun empty => ⟨empty side, empty side.opposite⟩
  · rintro ⟨here, there⟩ other
    cases side <;> cases other <;> assumption

theorem checkCrossings_eq_ok (shaped : machine.Shaped) {needles : List Needle}
    (ordinary : ∀ needle ∈ needles, needle.slider = false)
    (inRange : ∀ needle ∈ needles, needle.position < machine.needleCount) :
    machine.checkCrossings needles = .ok () ↔
      ∀ needle ∈ needles, machine.SlidersEmptyAt needle.position := by
  rw [checkCrossings, forM_eq_ok]
  refine forall₂_congr fun needle member => ?_
  have here := inRange needle member
  have oppositeHere : needle.opposite.position < machine.needleCount := here
  have isOrdinary := ordinary needle member
  have oppositeOrdinary : needle.opposite.slider = false := isOrdinary
  rw [then_eq_ok, checkClear_ordinary shaped isOrdinary here,
    checkClear_ordinary shaped oppositeOrdinary oppositeHere, slidersEmptyAt_iff]

theorem checkClear_inRange (shaped : machine.Shaped) {needle : Needle} {fault : Fault}
    (inRange : needle.position < machine.needleCount)
    (refused : machine.checkClear needle = .error fault) : fault = .needleNotClear needle := by
  have found : (machine.bed needle.side).at? needle.asSlider =
      some (machine.loops needle.asSlider) := at?_of_inRange shaped inRange
  rw [checkClear, bind_eq_error] at refused
  rcases refused with outside | ⟨clear, _, occupied⟩
  · rw [isClear, Bed.isClear, Bed.loopsAt, found] at outside
    cases outside
  · cases clear
    · cases occupied
      rfl
    · cases occupied

theorem checkCrossings_inRange (shaped : machine.Shaped) {needles : List Needle}
    (inRange : ∀ needle ∈ needles, needle.position < machine.needleCount) {fault : Fault}
    (refused : machine.checkCrossings needles = .error fault) :
    ∃ needle, fault = .needleNotClear needle := by
  obtain ⟨needle, member, here⟩ := forM_eq_error refused
  rcases bind_eq_error.mp here with start | ⟨_, _, target⟩
  · exact ⟨needle, checkClear_inRange shaped (inRange needle member) start⟩
  · exact ⟨needle.opposite, checkClear_inRange shaped (inRange needle member) target⟩

/-- A needle that crosses hands its loops to the opposite needle, whatever crosses beside it. -/
theorem loops_crossed_mem (shaped : machine.Shaped) {needles : List Needle} (apart : Apart needles)
    (inRange : ∀ needle ∈ needles, needle.position < machine.needleCount) {needle : Needle}
    (member : needle ∈ needles) :
    (machine.crossed needles).loops needle = [] ∧
      (machine.crossed needles).loops needle.opposite =
        machine.loops needle.opposite ++ machine.loops needle := by
  induction needles generalizing machine with
  | nil => cases member
  | cons first rest ih =>
      have firstInRange : first.position < machine.needleCount := inRange first (by simp)
      have oppositeInRange : first.opposite.position < machine.needleCount := firstInRange
      have movedShaped := shaped.moved first first.opposite
      have restInRange : ∀ other ∈ rest,
          other.position < (machine.moved first first.opposite).needleCount := by
        intro other inRest
        rw [needleCount_moved]
        exact inRange other (by simp [inRest])
      rw [crossed_cons]
      by_cases same : needle.position = first.position
      · obtain rfl : needle = first := apart.single needle member first (by simp) same
        obtain ⟨leaves, arrives⟩ := loops_crossed shaped firstInRange
        by_cases again : needle ∈ rest
        -- The second time the needle has no loops left to hand over.
        · obtain ⟨left, arrived⟩ := ih movedShaped apart.tail restInRange again
          rw [arrives, leaves, List.append_nil] at arrived
          exact ⟨left, arrived⟩
        · have elsewhere : ∀ other ∈ rest, needle.position ≠ other.position := by
            intro other inRest facing
            rw [apart.single needle (by simp) other (by simp [inRest]) facing] at again
            exact again inRest
          have stays := untouched_crossed movedShaped restInRange elsewhere
          rw [stays.loops needle rfl, stays.loops needle.opposite rfl]
          exact ⟨leaves, arrives⟩
      · have inRest : needle ∈ rest := by
          rcases List.mem_cons.mp member with rfl | inRest
          · exact absurd rfl same
          · exact inRest
        obtain ⟨left, arrived⟩ := ih movedShaped apart.tail restInRange inRest
        have stays := untouched_moved shaped firstInRange oppositeInRange same same
        rw [stays.loops needle rfl, stays.loops needle.opposite rfl] at arrived
        exact ⟨left, arrived⟩

@[simp] theorem racking_crossed (needles : List Needle) :
    (machine.crossed needles).racking = machine.racking := by
  induction needles generalizing machine with
  | nil => rfl
  | cons needle rest ih => rw [crossed_cons, ih, racking_moved]

@[simp] theorem record_crossed (needles : List Needle) :
    (machine.crossed needles).record = machine.record := by
  induction needles generalizing machine with
  | nil => rfl
  | cons needle rest ih => rw [crossed_cons, ih, record_moved]

theorem record_straightened (needles : List Needle) :
    (machine.straightened needles).record = machine.record :=
  (machine.straightened_undisturbed needles).record

/-- Putting transfers on record does not change what they do to the loops. -/
theorem loops_returned (shaped : machine.Shaped) (nextShaped : next.Shaped)
    (sameCount : next.needleCount = machine.needleCount)
    (same : ∀ needle, next.loops needle = machine.loops needle) {starts : List Needle}
    (inRange : ∀ start ∈ starts, start.position < machine.needleCount) (needle : Needle) :
    (next.returned starts).loops needle = (machine.crossed starts).loops needle := by
  induction starts generalizing machine next with
  | nil => exact same needle
  | cons start rest ih =>
      have here : start.position < machine.needleCount := inRange start (by simp)
      have nextHere : start.position < next.needleCount := by rwa [sameCount]
      have oppositeHere : start.opposite.position < machine.needleCount := here
      have nextOppositeHere : start.opposite.position < next.needleCount := nextHere
      refine ih (shaped.moved start start.opposite) (nextShaped.transferred start start.opposite)
        ?_ (fun other => ?_) fun other member => ?_
      · rw [needleCount_transferred, needleCount_moved, sameCount]
      · rw [loops_transferred, loops_moved nextShaped nextHere nextOppositeHere,
          loops_moved shaped here oppositeHere, same, same, same]
      · rw [needleCount_moved]
        exact inRange other (by simp [member])

theorem untouched_returned (shaped : machine.Shaped) {starts : List Needle}
    (inRange : ∀ start ∈ starts, start.position < machine.needleCount) {position : Nat}
    (elsewhere : ∀ start ∈ starts, position ≠ start.position) :
    machine.Untouched (machine.returned starts) position := by
  induction starts generalizing machine with
  | nil => exact ⟨rfl, fun _ _ => rfl⟩
  | cons start rest ih =>
      have here : start.position < machine.needleCount := inRange start (by simp)
      have oppositeHere : start.opposite.position < machine.needleCount := here
      have notHere := elsewhere start (by simp)
      refine (untouched_transferred shaped here oppositeHere notHere notHere).trans ?_
      refine ih (shaped.transferred start start.opposite) (fun other member => ?_)
        (fun other member => elsewhere other (by simp [member]))
      rw [needleCount_transferred]
      exact inRange other (by simp [member])

theorem upToDate_returned (shaped : machine.Shaped) {starts : List Needle}
    (inRange : ∀ start ∈ starts, start.position < machine.needleCount) {position : Nat}
    (here : (∃ start ∈ starts, start.position = position) ∨ machine.UpToDate position) :
    (machine.returned starts).UpToDate position := by
  induction starts generalizing machine with
  | nil =>
      rcases here with ⟨_, member, _⟩ | upToDate
      · cases member
      · exact upToDate
  | cons start rest ih =>
      have startInRange : start.position < machine.needleCount := inRange start (by simp)
      have oppositeInRange : start.opposite.position < machine.needleCount := startInRange
      have after := upToDate_transferred shaped startInRange oppositeInRange
      refine ih (shaped.transferred start start.opposite) (fun other member => ?_) ?_
      · rw [needleCount_transferred]
        exact inRange other (by simp [member])
      · by_cases same : position = start.position
        · rw [same]
          exact Or.inr after.1
        · rcases here with ⟨other, member, isHere⟩ | upToDate
          · rcases List.mem_cons.mp member with rfl | inRest
            · exact absurd isHere.symm same
            · exact Or.inl ⟨other, inRest, isHere⟩
          · exact Or.inr (upToDate.untouched
              (untouched_transferred shaped startInRange oppositeInRange same same))

/-- Loops on a side of a position in a layer are in the way of an active layer: those in front of a
layer behind it, and those at the back of a layer before it. -/
def InWay (activeLayer layer : Nat) : Side → Prop
  | .front => activeLayer < layer
  | .back => layer < activeLayer

structure Blocks (machine : Machine) (sheets : List Nat) (needle : Needle) : Prop where
  ordinary : needle.slider = false
  held : machine.loops needle ≠ []
  inactive : machine.sheetOf needle.position ∉ sheets
  inWay : ∃ active ∈ sheets, InWay (machine.sheetLayer active needle.position)
    (machine.layer needle.position) needle.side

theorem inRange_of_held (shaped : machine.Shaped) {needle : Needle}
    (held : machine.loops needle ≠ []) : needle.position < machine.needleCount :=
  Decidable.not_not.mp fun outside => held (loops_outside shaped outside)

theorem any_of_held {needle : Needle} (ordinary : needle.slider = false)
    (held : machine.loops needle ≠ []) : (machine.presence needle.position).any = true := by
  obtain ⟨side, position, slider⟩ := needle
  cases ordinary
  rw [presence_eq]
  cases side <;> simp_all [Presence.any, Needle.front, Needle.back]

theorem blocker?_eq_some {activeLayer position : Nat} {needle : Needle} :
    machine.blocker? activeLayer position = some needle ↔
      needle.position = position ∧ needle.slider = false ∧ machine.loops needle ≠ [] ∧
        InWay activeLayer (machine.layer position) needle.side := by
  obtain ⟨side, here, slider⟩ := needle
  have order : machine.layer position < activeLayer → ¬activeLayer < machine.layer position :=
    Nat.lt_asymm
  simp only [blocker?, presence_eq, Needle.front, Needle.back]
  constructor
  · intro found
    split at found
    · rename_i behind
      cases found
      exact ⟨rfl, rfl, by simpa using behind.2, behind.1⟩
    · split at found
      · rename_i before
        cases found
        exact ⟨rfl, rfl, by simpa using before.2, before.1⟩
      · cases found
  · rintro ⟨rfl, rfl, held, inWay⟩
    cases side with
    | front =>
        rw [if_neg fun behind => order behind.1 inWay, if_pos ⟨inWay, by simpa using held⟩]
    | back => rw [if_pos ⟨inWay, by simpa using held⟩]

/-- A plan moves just the needles that block the sheets, and what is in the way of one of the sheets
is in the way of all. -/
structure PeelPlan.Exact (plan : PeelPlan) (machine : Machine) (sheets : List Nat) : Prop
    extends PeelPlan.Fits plan machine sheets where
  single : Apart plan.moves
  moves : ∀ needle, needle ∈ plan.moves ↔ machine.Blocks sheets needle
  inWay : ∀ needle ∈ plan.moves, ∀ active ∈ sheets,
    InWay (machine.sheetLayer active needle.position) (machine.layer needle.position) needle.side

theorem PeelPlan.Exact.moves_eq_nil {sheets : List Nat} (exactly : plan.Exact machine sheets)
    (idle : ∀ needle, ¬machine.Blocks sheets needle) : plan.moves = [] :=
  List.eq_nil_iff_forall_not_mem.mpr fun needle member =>
    idle needle ((exactly.moves needle).mp member)

theorem blockers_exact (shaped : machine.Shaped) {sheets : List Nat} {activeLayer : Nat → Nat}
    (planned : plan.moves = (machine.otherPositions sheets).filterMap fun position =>
      machine.blocker? (activeLayer position) position)
    (fits : plan.Fits machine sheets) (single : Apart plan.moves) (named : sheets ≠ [])
    (agree : ∀ position ∈ machine.otherPositions sheets, ∀ active ∈ sheets,
      machine.sheetLayer active position = activeLayer position) :
    plan.Exact machine sheets := by
  have found : ∀ needle ∈ plan.moves, needle.position ∈ machine.otherPositions sheets ∧
      InWay (activeLayer needle.position) (machine.layer needle.position) needle.side := by
    intro needle member
    rw [planned] at member
    obtain ⟨position, other, blocks⟩ := List.mem_filterMap.mp member
    obtain ⟨rfl, _, _, inWay⟩ := blocker?_eq_some.mp blocks
    exact ⟨other, inWay⟩
  have inWay : ∀ needle ∈ plan.moves, ∀ active ∈ sheets,
      InWay (machine.sheetLayer active needle.position) (machine.layer needle.position)
        needle.side := by
    intro needle member active isActive
    rw [agree _ (found needle member).1 active isActive]
    exact (found needle member).2
  refine ⟨fits, single, fun needle => ⟨fun member => ?_, fun blocks => ?_⟩, inWay⟩
  · obtain ⟨active, isActive⟩ := List.exists_mem_of_ne_nil sheets named
    exact ⟨fits.ordinary needle member, fits.held needle member, fits.inactive needle member,
      active, isActive, inWay needle member active isActive⟩
  · obtain ⟨ordinary, held, inactive, active, isActive, blocking⟩ := blocks
    have other : needle.position ∈ machine.otherPositions sheets := mem_otherPositions.mpr
      ⟨inRange_of_held shaped held, any_of_held ordinary held, inactive⟩
    rw [agree _ other active isActive] at blocking
    rw [planned]
    exact List.mem_filterMap.mpr
      ⟨_, other, blocker?_eq_some.mpr ⟨rfl, ordinary, held, blocking⟩⟩

theorem peelPlan_exact {sheet : Nat} (shaped : machine.Shaped)
    (planned : machine.peelPlan sheet = .ok plan) : plan.Exact machine [sheet] := by
  have fits := peelPlan_fits planned
  have single := (Strict.peelPlan_indexed planned).apart
  simp only [peelPlan, then_eq_ok, pure_eq_ok] at planned
  obtain ⟨_, rfl⟩ := planned
  refine blockers_exact shaped rfl fits single (by simp) fun position _ active isActive => ?_
  rw [List.mem_singleton.mp isActive]

/-- The sheets can be worked apart from the others: they exist, and in each gauge group they share a
layer in which no other loops lie. -/
structure Separable (machine : Machine) (sheets : List Nat) : Prop where
  named : sheets ≠ []
  exist : ∀ sheet ∈ sheets, sheet < machine.gauge
  shared : ∀ position ∈ machine.otherPositions sheets, ∀ first ∈ sheets, ∀ second ∈ sheets,
    machine.sheetLayer first position = machine.sheetLayer second position
  apart : ∀ position ∈ machine.otherPositions sheets, ∀ active ∈ sheets,
    machine.layer position ≠ machine.sheetLayer active position

theorem sharedLayer_eq {sheets : List Nat} {position : Nat}
    (shared : ∀ first ∈ sheets, ∀ second ∈ sheets,
      machine.sheetLayer first position = machine.sheetLayer second position) {active : Nat}
    (isActive : active ∈ sheets) :
    machine.sharedLayer sheets position = machine.sheetLayer active position := by
  cases sheets with
  | nil => cases isActive
  | cons first rest => exact shared first (by simp) active isActive

theorem checkSeparable_eq_ok {sheets : List Nat} {position : Nat} :
    machine.checkSeparable sheets position = .ok () ↔
      (∀ active ∈ sheets,
        machine.sheetLayer active position = machine.sharedLayer sheets position) ∧
      machine.layer position ≠ machine.sharedLayer sheets position := by
  simp only [checkSeparable, throw_bind, refusal_eq_ok, pure_eq_ok, and_true, List.any_eq_true,
    decide_eq_true_eq, not_exists, not_and, not_not, ne_eq]

theorem separable_of_checked {sheets : List Nat}
    (separable : ∀ position ∈ machine.otherPositions sheets,
      machine.checkSeparable sheets position = .ok ()) (named : sheets ≠ [])
    (exist : ∀ sheet ∈ sheets, sheet < machine.gauge) : machine.Separable sheets where
  named := named
  exist := exist
  shared position other first isFirst second isSecond := by
    have agree := (checkSeparable_eq_ok.mp (separable position other)).1
    rw [agree first isFirst, agree second isSecond]
  apart position other active isActive := by
    obtain ⟨agree, apart⟩ := checkSeparable_eq_ok.mp (separable position other)
    rwa [agree active isActive]

theorem exists_peelPlan_iff (valid : checkGauge machine.gauge = .ok ()) {sheet : Nat} :
    (∃ plan, machine.peelPlan sheet = .ok plan) ↔ sheet < machine.gauge := by
  simp only [peelPlan, then_eq_ok, pure_eq_ok, checkSheet_eq_ok]
  constructor
  · rintro ⟨_, ⟨_, _, exist⟩, _⟩
    exact exist
  · intro exist
    obtain ⟨positive, bounded⟩ := checkGauge_eq_ok.mp valid
    exact ⟨_, ⟨positive, bounded, exist⟩, rfl⟩

theorem exists_peelPlanAll_iff (valid : checkGauge machine.gauge = .ok ()) {sheets : List Nat} :
    (∃ plan, machine.peelPlanAll sheets = .ok plan) ↔ machine.Separable sheets := by
  simp only [peelPlanAll, throw_bind, refusal_eq_ok, then_eq_ok, pure_eq_ok, forM_eq_ok,
    List.isEmpty_iff]
  constructor
  · rintro ⟨_, named, exist, separable, _⟩
    exact separable_of_checked separable named fun sheet member =>
      (checkSheet_eq_ok.mp (exist sheet member)).2.2
  · rintro ⟨named, exist, shared, apart⟩
    obtain ⟨positive, bounded⟩ := checkGauge_eq_ok.mp valid
    refine ⟨_, named, fun sheet member =>
      checkSheet_eq_ok.mpr ⟨positive, bounded, exist sheet member⟩, ?_, rfl⟩
    intro position other
    obtain ⟨active, isActive⟩ := List.exists_mem_of_ne_nil sheets named
    have same := fun sheet (member : sheet ∈ sheets) =>
      sharedLayer_eq (shared position other) member
    refine checkSeparable_eq_ok.mpr ⟨fun sheet member => (same sheet member).symm, ?_⟩
    rw [same active isActive]
    exact apart position other active isActive

theorem peelPlanAll_exact {sheets : List Nat} (shaped : machine.Shaped)
    (planned : machine.peelPlanAll sheets = .ok plan) : plan.Exact machine sheets := by
  have fits := peelPlanAll_fits planned
  have single := (Strict.peelPlanAll_indexed planned).apart
  simp only [peelPlanAll, throw_bind, refusal_eq_ok, then_eq_ok, pure_eq_ok, forM_eq_ok,
    List.isEmpty_iff] at planned
  obtain ⟨named, _, separable, rfl⟩ := planned
  exact blockers_exact shaped rfl fits single named fun position other =>
    (checkSeparable_eq_ok.mp (separable position other)).1

end Machine

end VBed
