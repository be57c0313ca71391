import VBed.Proofs.Record

/-!
Sheets do not disturb each other. Whatever is done to other sheets, the loops of a sheet stay
together at their positions, in order, on one needle or the opposite one, and the record still knows
their home; so a reset that succeeds brings all of them back.
-/

namespace VBed

namespace Call

def Spares (gauge sheet : Nat) (call : Call) : Prop :=
  (∀ position ∈ call.named, position % gauge ≠ sheet) ∧
    ∀ number, call = .apply (.gauge number) → number = gauge

def resetsSheet (sheet : Nat) : Call → Bool
  | apply (.reset other) => other == sheet
  | apply (.resetSheets sheets) => sheets.contains sheet
  | _ => false

theorem peelsOrResets_of_resetsSheet {sheet : Nat} {call : Call}
    (resets : call.resetsSheet sheet = true) : call.peelsOrResets = true := by
  cases call with
  | record position => cases resets
  | apply operation => cases operation <;> first | rfl | cases resets

theorem Peels.resetsNone {call : Call} {machine : Machine} {plan : Machine.PeelPlan}
    (peels : call.Peels machine plan) (sheet : Nat) : call.resetsSheet sheet = false := by
  cases call with
  | record position => rfl
  | apply operation => cases operation <;> first | rfl | exact False.elim peels

/-- A reset chooses all positions of its sheets, and its plan moves none of them. -/
theorem Resets.chooses {call : Call} {machine : Machine} {plan : Machine.PeelPlan}
    {chosen : Nat → Bool} (resets : call.Resets machine plan chosen) {position : Nat}
    (resetsSheet : call.resetsSheet (machine.sheetOf position) = true) :
    chosen position = true ∧ ∀ needle ∈ plan.moves, position ≠ needle.position := by
  cases call with
  | record position => cases resetsSheet
  | apply operation =>
      cases operation with
      | reset sheet =>
          obtain ⟨planned, rfl⟩ := resets
          refine ⟨by simp_all [Call.resetsSheet], ?_⟩
          rintro needle moves rfl
          have inactive := (Machine.peelPlan_fits planned).inactive needle moves
          simp_all [Call.resetsSheet]
      | resetSheets sheets =>
          obtain ⟨planned, rfl⟩ := resets
          refine ⟨resetsSheet, ?_⟩
          rintro needle moves rfl
          have inactive := (Machine.peelPlanAll_fits planned).inactive needle moves
          exact inactive (by simpa [Call.resetsSheet] using resetsSheet)
      | _ => cases resetsSheet

end Call

namespace Machine

variable {machine current next last : Machine}

structure SameSetting (machine next : Machine) : Prop where
  spec : next.spec = machine.spec
  direction : next.direction = machine.direction
  carriers : next.carriers = machine.carriers
  graph : next.graph = machine.graph
  gauge : next.gauge = machine.gauge
  sheet : next.sheet = machine.sheet
  layers : next.layers = machine.layers

theorem SameSetting.refl (machine : Machine) : machine.SameSetting machine :=
  ⟨rfl, rfl, rfl, rfl, rfl, rfl, rfl⟩

theorem SameSetting.layer (same : machine.SameSetting next) (position : Nat) :
    next.layer position = machine.layer position := by
  rw [Machine.layer, same.layers]
  rfl

theorem SameSetting.sheetLayer (same : machine.SameSetting next) (sheet position : Nat) :
    next.sheetLayer sheet position = machine.sheetLayer sheet position := by
  rw [Machine.sheetLayer, same.layer, groupStart, same.gauge]
  rfl

theorem SameSetting.sheetOf (same : machine.SameSetting next) (position : Nat) :
    next.sheetOf position = machine.sheetOf position := by
  rw [Machine.sheetOf, same.gauge]
  rfl

theorem SameSetting.trans (first : machine.SameSetting next) (second : next.SameSetting last) :
    machine.SameSetting last :=
  ⟨second.spec.trans first.spec, second.direction.trans first.direction,
    second.carriers.trans first.carriers, second.graph.trans first.graph,
    second.gauge.trans first.gauge, second.sheet.trans first.sheet,
    second.layers.trans first.layers⟩

theorem sameSetting_put (machine : Machine) (needle : Needle) (held : List LoopId) :
    machine.SameSetting (machine.put needle held) := by
  rw [put]
  cases needle.side <;> exact ⟨rfl, rfl, rfl, rfl, rfl, rfl, rfl⟩

theorem sameSetting_recorded (machine : Machine) (position : Nat) :
    machine.SameSetting (machine.recorded position) :=
  ⟨rfl, rfl, rfl, rfl, rfl, rfl, rfl⟩

theorem sameSetting_moved (machine : Machine) (start target : Needle) :
    machine.SameSetting (machine.moved start target) :=
  (sameSetting_put machine start []).trans (sameSetting_put _ target _)

theorem sameSetting_transferred (machine : Machine) (start target : Needle) :
    machine.SameSetting (machine.transferred start target) :=
  ((sameSetting_moved machine start target).trans (sameSetting_recorded _ _)).trans
    (sameSetting_recorded _ _)

theorem sameSetting_straightened (machine : Machine) (needles : List Needle) :
    machine.SameSetting (machine.straightened needles) := by
  rw [straightened]
  split
  · exact .refl machine
  · exact ⟨rfl, rfl, rfl, rfl, rfl, rfl, rfl⟩

theorem measures_made (machine : Machine) (needle : Needle) (fed : CarrierSystem)
    (yarns : List Yarn) (kept parents : List LoopId) :
    (machine.made needle fed yarns kept parents).spec = machine.spec ∧
      (machine.made needle fed yarns kept parents).gauge = machine.gauge :=
  have placed := sameSetting_put machine needle (kept ++ machine.graph.nextLoops yarns.length)
  ⟨placed.spec, placed.gauge⟩

/-- The measures never change, and the gauge only by a change of gauge. -/
theorem Effect.measures (shaped : machine.Shaped) {call : Call} {lines : List Line}
    (effect : Effect machine call lines next) :
    next.spec = machine.spec ∧
      (next.gauge = machine.gauge ∨
        call = .apply (.gauge next.gauge) ∧ checkGauge next.gauge = .ok ()) := by
  have same : machine.SameSetting next → next.spec = machine.spec ∧
      (next.gauge = machine.gauge ∨
        call = .apply (.gauge next.gauge) ∧ checkGauge next.gauge = .ok ()) :=
    fun setting => ⟨setting.spec, Or.inl setting.gauge⟩
  cases effect with
  | retuned tuning => exact ⟨tuning.retuned.spec, Or.inl tuning.retuned.gauge⟩
  | @regauged number checked =>
      rw [gauge_regauged]
      exact ⟨(machine.regauged_undisturbed number).spec, Or.inr ⟨rfl, (then_eq_ok.mp checked).1⟩⟩
  | recorded _ => exact same (sameSetting_recorded machine _)
  | @knitted needle _ _ yarns fed _ _ =>
      have made := measures_made machine needle fed yarns [] (machine.loops needle)
      exact ⟨made.1, Or.inl made.2⟩
  | @tucked needle _ _ yarns fed _ _ =>
      have made := measures_made machine needle fed yarns (machine.loops needle) []
      exact ⟨made.1, Or.inl made.2⟩
  | @splitted start target _ _ yarns fed _ _ =>
      have transferred := sameSetting_transferred machine start target
      have made := measures_made (machine.transferred start target) start fed yarns [] []
      exact ⟨made.1.trans transferred.spec, Or.inl (made.2.trans transferred.gauge)⟩
  | @dropped needle _ => exact same ((sameSetting_put machine needle []).trans
      (sameSetting_recorded _ _))
  | @transferred start target _ => exact same (sameSetting_transferred machine start target)
  | peeled _ fits _ =>
      exact same (peeled_preserves machine.SameSetting
        (fun current needle _ _ _ setting => setting.trans (sameSetting_moved current needle _))
        shaped fits (sameSetting_straightened machine _))
  | restored _ fits planned _ =>
      exact same (restored_preserves machine.SameSetting
        (fun current needle _ _ _ setting => setting.trans (sameSetting_moved current needle _))
        (fun current start _ _ _ setting => setting.trans (sameSetting_transferred current start _))
        shaped fits planned (sameSetting_straightened machine _))

structure Settled (machine : Machine) (position : Nat) : Prop where
  upToDate : machine.UpToDate position
  oneSided : machine.loops (.front position) = [] ∨ machine.loops (.back position) = []

def Home (machine current : Machine) (position : Nat) : Prop :=
  current.loops (.front position) = machine.loops (.front position) ∧
    current.loops (.back position) = machine.loops (.back position)

def Swapped (machine current : Machine) (position : Nat) : Prop :=
  current.loops (.front position) = machine.loops (.back position) ∧
    current.loops (.back position) = machine.loops (.front position)

structure Kept (machine current : Machine) (position : Nat) : Prop where
  record : current.onRecord position = machine.onRecord position
  sliders : ∀ side, current.loops ⟨side, position, true⟩ = machine.loops ⟨side, position, true⟩
  needles : machine.Home current position ∨ machine.Swapped current position

theorem Kept.refl (machine : Machine) (position : Nat) : machine.Kept machine position :=
  ⟨rfl, fun _ => rfl, Or.inl ⟨rfl, rfl⟩⟩

theorem Home.untouched {position : Nat} (home : machine.Home current position)
    (same : current.Untouched next position) : machine.Home next position :=
  ⟨(same.loops _ rfl).trans home.1, (same.loops _ rfl).trans home.2⟩

theorem Swapped.untouched {position : Nat} (swapped : machine.Swapped current position)
    (same : current.Untouched next position) : machine.Swapped next position :=
  ⟨(same.loops _ rfl).trans swapped.1, (same.loops _ rfl).trans swapped.2⟩

theorem Kept.untouched {position : Nat} (kept : machine.Kept current position)
    (same : current.Untouched next position) : machine.Kept next position where
  record := same.record.trans kept.record
  sliders side := (same.loops _ rfl).trans (kept.sliders side)
  needles := by
    rcases kept.needles with home | swapped
    · exact Or.inl (home.untouched same)
    · exact Or.inr (swapped.untouched same)

theorem loops_crossed (shaped : machine.Shaped) {needle : Needle}
    (inRange : needle.position < machine.needleCount) :
    (machine.moved needle needle.opposite).loops needle = [] ∧
      (machine.moved needle needle.opposite).loops needle.opposite =
        machine.loops needle.opposite ++ machine.loops needle := by
  have oppositeInRange : needle.opposite.position < machine.needleCount := inRange
  have loops := loops_moved shaped inRange oppositeInRange
  rw [loops, loops, if_neg (opposite_ne needle), if_pos rfl, if_pos rfl]
  exact ⟨rfl, rfl⟩

/-- However often the loops of one needle change places, they are all loops of the position, in
order. -/
theorem Kept.whole {position : Nat} (kept : machine.Kept current position)
    (settled : machine.Settled position) :
    current.loops (.front position) ++ current.loops (.back position) =
        machine.loops (.front position) ++ machine.loops (.back position) ∧
      current.loops (.back position) ++ current.loops (.front position) =
        machine.loops (.front position) ++ machine.loops (.back position) := by
  rcases kept.needles with ⟨front, back⟩ | ⟨front, back⟩
  · rw [front, back]
    rcases settled.oneSided with empty | empty <;> simp [empty]
  · rw [front, back]
    rcases settled.oneSided with empty | empty <;> simp [empty]

/-- Once moved across, the loops of a position are on the opposite needle. -/
theorem Kept.gathered {position : Nat} (kept : machine.Kept current position)
    (settled : machine.Settled position) (shaped : current.Shaped) {needle : Needle}
    (ordinary : needle.slider = false) (inRange : needle.position < current.needleCount)
    (here : position = needle.position) :
    (current.moved needle needle.opposite).loops needle = [] ∧
      (current.moved needle needle.opposite).loops needle.opposite =
        machine.loops (.front position) ++ machine.loops (.back position) := by
  obtain ⟨leaves, arrives⟩ := loops_crossed shaped inRange
  refine ⟨leaves, ?_⟩
  obtain ⟨forward, backward⟩ := kept.whole settled
  rw [arrives]
  subst here
  cases needle with
  | mk side position slider =>
      cases ordinary
      cases side with
      | front => exact backward
      | back => exact forward

theorem Settled.separate {position : Nat} (settled : machine.Settled position) :
    machine.onRecord position ≠ ⟨true, true⟩ := by
  rw [settled.upToDate, presence_eq]
  rcases settled.oneSided with empty | empty <;> simp [empty]

theorem Kept.moved {position : Nat} (kept : machine.Kept current position)
    (settled : machine.Settled position) (shaped : current.Shaped) {needle : Needle}
    (ordinary : needle.slider = false) (inRange : needle.position < current.needleCount) :
    machine.Kept (current.moved needle needle.opposite) position := by
  have oppositeInRange : needle.opposite.position < current.needleCount := inRange
  by_cases here : position = needle.position
  · obtain ⟨leaves, arrives⟩ := kept.gathered settled shaped ordinary inRange here
    refine ⟨?_, ?_, ?_⟩
    · rw [onRecord_congr (record_moved needle needle.opposite), kept.record]
    · intro side
      rw [loops_slider_moved shaped ordinary inRange rfl, kept.sliders]
    · subst here
      cases needle with
      | mk side position slider =>
          cases ordinary
          cases side with
          | front =>
              -- All loops are on the back needle.
              rcases settled.oneSided with noFront | noBack
              · exact Or.inl ⟨leaves.trans noFront.symm, by rw [noFront] at arrives; exact arrives⟩
              · exact Or.inr ⟨leaves.trans noBack.symm, by
                  rw [noBack, List.append_nil] at arrives
                  exact arrives⟩
          | back =>
              -- All loops are on the front needle.
              rcases settled.oneSided with noFront | noBack
              · exact Or.inr ⟨by rw [noFront] at arrives; exact arrives, leaves.trans noFront.symm⟩
              · exact Or.inl ⟨by
                  rw [noBack, List.append_nil] at arrives
                  exact arrives, leaves.trans noBack.symm⟩
  · exact kept.untouched (untouched_moved shaped inRange oppositeInRange here here)

def Homeward (recorded : Presence) (start : Needle) : Prop :=
  recorded = ⟨true, false⟩ ∧ start = .back start.position ∨
    recorded = ⟨false, true⟩ ∧ start = .front start.position

/-- A return brings the loops of its position home, and puts on record what was there before. -/
theorem Kept.returnedHere {position : Nat} (kept : machine.Kept current position)
    (settled : machine.Settled position) (shaped : current.Shaped) {start : Needle}
    (inRange : start.position < current.needleCount) (here : position = start.position)
    (homeward : Homeward (machine.onRecord position) start) :
    machine.Home (current.transferred start start.opposite) position ∧
      (current.transferred start start.opposite).onRecord position = machine.onRecord position := by
  have oppositeInRange : start.opposite.position < current.needleCount := inRange
  have home : machine.Home (current.transferred start start.opposite) position := by
    have ordinary : start.slider = false := by
      rcases homeward with ⟨_, away⟩ | ⟨_, away⟩ <;> rw [away] <;> rfl
    obtain ⟨leaves, arrives⟩ := kept.gathered settled shaped ordinary inRange here
    rw [Home, loops_transferred, loops_transferred]
    rw [settled.upToDate, presence_eq] at homeward
    rcases homeward with ⟨recorded, away⟩ | ⟨recorded, away⟩
    · have noBack : machine.loops (.back position) = [] := by
        simpa using congrArg Presence.back recorded
      rw [noBack, List.append_nil] at arrives
      rw [away, ← here] at leaves arrives ⊢
      exact ⟨arrives, leaves.trans noBack.symm⟩
    · have noFront : machine.loops (.front position) = [] := by
        simpa using congrArg Presence.front recorded
      rw [noFront, List.nil_append] at arrives
      rw [away, ← here] at leaves arrives ⊢
      exact ⟨leaves.trans noFront.symm, arrives⟩
  refine ⟨home, ?_⟩
  have upToDate := (upToDate_transferred shaped inRange oppositeInRange).1
  rw [here, upToDate, ← here, presence_congr home.1 home.2, settled.upToDate]

theorem Kept.returned {position : Nat} (kept : machine.Kept current position)
    (settled : machine.Settled position) (shaped : current.Shaped) {starts : List Needle}
    (ordinary : ∀ start ∈ starts, start.slider = false)
    (inRange : ∀ start ∈ starts, start.position < current.needleCount)
    (homeward : ∀ start ∈ starts, position = start.position →
      Homeward (machine.onRecord position) start) :
    machine.Kept (current.returned starts) position ∧
      (machine.Home current position ∨ (∃ start ∈ starts, position = start.position) →
        machine.Home (current.returned starts) position) := by
  induction starts generalizing current with
  | nil =>
      refine ⟨kept, ?_⟩
      rintro (home | ⟨start, member, _⟩)
      · exact home
      · cases member
  | cons start rest ih =>
      have startInRange : start.position < current.needleCount := inRange start (by simp)
      have oppositeInRange : start.opposite.position < current.needleCount := startInRange
      let next := current.transferred start start.opposite
      have sameCount : next.needleCount = current.needleCount :=
        needleCount_transferred start start.opposite
      have first : machine.Kept next position ∧
          (machine.Home current position ∨ position = start.position →
            machine.Home next position) := by
        by_cases here : position = start.position
        · obtain ⟨home, record⟩ := kept.returnedHere settled shaped startInRange here
            (homeward start (by simp) here)
          refine ⟨⟨record, fun side => ?_, Or.inl home⟩, fun _ => home⟩
          rw [loops_transferred,
            loops_slider_moved shaped (ordinary start (by simp)) startInRange rfl, kept.sliders]
        · have same := untouched_transferred shaped startInRange oppositeInRange here here
          refine ⟨kept.untouched same, ?_⟩
          rintro (home | isHere)
          · exact home.untouched same
          · exact absurd isHere here
      obtain ⟨later, homeLater⟩ := ih first.1 (shaped.transferred start start.opposite)
        (fun other member => ordinary other (by simp [member]))
        (fun other member => by rw [sameCount]; exact inRange other (by simp [member]))
        (fun other member => homeward other (by simp [member]))
      refine ⟨later, ?_⟩
      rintro (home | ⟨other, member, isHere⟩)
      · exact homeLater (Or.inl (first.2 (Or.inl home)))
      · rcases List.mem_cons.mp member with rfl | inRest
        · exact homeLater (Or.inl (first.2 (Or.inr isHere)))
        · exact homeLater (Or.inr ⟨other, inRest, isHere⟩)

theorem untouched_crossed (shaped : machine.Shaped) {needles : List Needle}
    (inRange : ∀ needle ∈ needles, needle.position < machine.needleCount) {position : Nat}
    (elsewhere : ∀ needle ∈ needles, position ≠ needle.position) :
    machine.Untouched (machine.crossed needles) position := by
  induction needles generalizing machine with
  | nil => exact ⟨rfl, fun _ _ => rfl⟩
  | cons needle rest ih =>
      have here : needle.position < machine.needleCount := inRange needle (by simp)
      have oppositeHere : needle.opposite.position < machine.needleCount := here
      have notHere := elsewhere needle (by simp)
      refine (untouched_moved shaped here oppositeHere notHere notHere).trans ?_
      refine ih (shaped.moved needle needle.opposite) (fun other member => ?_)
        (fun other member => elsewhere other (by simp [member]))
      rw [needleCount_moved]
      exact inRange other (by simp [member])

theorem Kept.peeled {position : Nat} (kept : machine.Kept current position)
    (settled : machine.Settled position) (shaped : current.Shaped) {plan : PeelPlan}
    {sheets : List Nat} (fits : plan.Fits current sheets) (straight : List Needle) :
    machine.Kept ((current.straightened straight).crossed (plan.ordered current)) position :=
  peeled_preserves (machine.Kept · position)
    (fun _ _ shaped ordinary inRange held => held.moved settled shaped ordinary inRange)
    shaped fits (kept.untouched ((current.straightened_undisturbed straight).untouched position))

theorem untouched_peeled (shaped : machine.Shaped) {plan : PeelPlan} {sheets : List Nat}
    (fits : plan.Fits machine sheets) (straight : List Needle) {position : Nat}
    (stays : ∀ needle ∈ plan.moves, position ≠ needle.position) :
    machine.Untouched
      ((machine.straightened straight).crossed (plan.ordered machine)) position := by
  have undisturbed := machine.straightened_undisturbed straight
  refine (undisturbed.untouched position).trans
    (untouched_crossed (undisturbed.shaped shaped) ?_ ?_)
  · intro needle member
    rw [undisturbed.needleCount]
    exact fits.inRange needle (mem_ordered member)
  · exact fun needle member => stays needle (mem_ordered member)

theorem homeward_of_planned {plan : PeelPlan} {chosen : Nat → Bool} {returns : List Needle}
    (planned : machine.returnPlan plan chosen = .ok returns) {start : Needle}
    (member : start ∈ returns) : Homeward (machine.onRecord start.position) start := by
  obtain ⟨position, _, _, found⟩ := (returnPlan_facts planned).2 start member
  obtain ⟨rfl, ordinary, recorded, _⟩ := returnStart?_eq_some.mp found
  obtain ⟨side, position, slider⟩ := start
  cases ordinary
  cases side with
  | front => exact Or.inr ⟨recorded, rfl⟩
  | back => exact Or.inl ⟨recorded, rfl⟩

/-- A chosen position whose loops are not at home is among the returns. -/
theorem Kept.returns {position : Nat} (kept : machine.Kept current position)
    (settled : machine.Settled position) {plan : PeelPlan} {chosen : Nat → Bool}
    {returns : List Needle} (planned : current.returnPlan plan chosen = .ok returns)
    (inRange : position < current.needleCount) (isChosen : chosen position = true)
    (stays : ∀ needle ∈ plan.moves, position ≠ needle.position) :
    machine.Home current position ∨ ∃ start ∈ returns, position = start.position := by
  rcases kept.needles with home | swapped
  · exact Or.inl home
  · obtain ⟨start, found, listed⟩ := (returnPlan_facts planned).1 position inRange isChosen
    rw [projected_settled stays, kept.record, settled.upToDate, presence_eq, presence_eq, swapped.1,
      swapped.2] at found
    cases front : machine.loops (.front position) with
    | nil =>
        cases back : machine.loops (.back position) with
        | nil => exact Or.inl ⟨swapped.1.trans (back.trans front.symm),
            swapped.2.trans (front.trans back.symm)⟩
        | cons loop rest =>
            rw [front, back] at found
            cases found
            exact Or.inr ⟨_, listed _ rfl, rfl⟩
    | cons loop rest =>
        have back : machine.loops (.back position) = [] := by
          rcases settled.oneSided with empty | empty
          · rw [front] at empty
            cases empty
          · exact empty
        rw [front, back] at found
        cases found
        exact Or.inr ⟨_, listed _ rfl, rfl⟩

theorem Kept.restored {position : Nat} (kept : machine.Kept current position)
    (settled : machine.Settled position) (sound : current.Sound) {plan : PeelPlan}
    {sheets : List Nat} (fits : plan.Fits current sheets) {chosen : Nat → Bool}
    {returns : List Needle} (planned : current.returnPlan plan chosen = .ok returns) :
    machine.Kept (current.restored plan returns) position ∧
      (position < current.needleCount → chosen position = true →
        (∀ needle ∈ plan.moves, position ≠ needle.position) →
          machine.Home (current.restored plan returns) position) := by
  let straight := plan.moves ++ returns
  have peeled := sound.peeled fits straight
  have keptPeeled := kept.peeled settled sound.shaped fits straight
  -- The moves may flip the position again before the returns look for it on the record.
  have lastly := keptPeeled.returned settled peeled.sound.shaped
    (fun start member => (returns_fit planned member).1)
    (fun start member => by rw [peeled.needleCount]; exact (returns_fit planned member).2)
    (fun start member here => by
      rw [← kept.record, here]
      exact homeward_of_planned planned member)
  refine ⟨lastly.1, fun inRange isChosen stays => lastly.2 ?_⟩
  rcases kept.returns settled planned inRange isChosen stays with home | listed
  · exact Or.inl (home.untouched (untouched_peeled sound.shaped fits straight stays))
  · exact Or.inr listed

theorem Kept.after {position : Nat} (kept : machine.Kept current position)
    (settled : machine.Settled position) (sound : current.Sound) {call : Call}
    (notNamed : position ∉ call.named) : machine.Kept (call.after current) position := by
  rcases after_cases sound.shaped sound.known call with unchanged | ⟨lines, effect⟩
  · rw [unchanged]
    exact kept
  · cases crosses : call.peelsOrResets with
    | false =>
        rcases effect.positions sound crosses position with same | ⟨named, _⟩
        · exact kept.untouched same
        · exact absurd named notNamed
    | true =>
        rcases effect.crossings crosses with
          ⟨plan, sheets, _, fits, left⟩ | ⟨plan, sheets, chosen, returns, _, fits, planned, left⟩
        · rw [left]
          exact kept.peeled settled sound.shaped fits plan.moves
        · rw [left]
          exact (kept.restored settled sound fits planned).1

theorem gauge_after (sound : machine.Sound) {call : Call}
    (sameGauge : ∀ number, call = .apply (.gauge number) → number = machine.gauge) :
    (call.after machine).gauge = machine.gauge := by
  rcases after_cases sound.shaped sound.known call with unchanged | ⟨lines, effect⟩
  · rw [unchanged]
  · rcases (effect.measures sound.shaped).2 with same | ⟨changed, _⟩
    · exact same
    · exact sameGauge _ changed

theorem Kept.afterAll {position : Nat} (kept : machine.Kept current position)
    (settled : machine.Settled position) (sound : current.Sound)
    (sameGauge : current.gauge = machine.gauge) {calls : List Call}
    (spares : ∀ call ∈ calls, call.Spares machine.gauge (position % machine.gauge)) :
    machine.Kept (current.afterAll calls) position ∧
      (current.afterAll calls).gauge = machine.gauge := by
  induction calls generalizing current with
  | nil => exact ⟨kept, sameGauge⟩
  | cons call rest ih =>
      obtain ⟨elsewhere, keepsGauge⟩ := spares call (by simp)
      have next := kept.after settled sound (fun named => elsewhere position named rfl)
      have nextGauge : (call.after current).gauge = machine.gauge := by
        rw [gauge_after sound fun number same => by rw [sameGauge, keepsGauge number same],
          sameGauge]
      exact ih next (sound.after call).sound nextGauge
        fun other member => spares other (by simp [member])

theorem spec_after (sound : machine.Sound) (call : Call) :
    (call.after machine).spec = machine.spec := by
  rcases after_cases sound.shaped sound.known call with unchanged | ⟨lines, effect⟩
  · rw [unchanged]
  · exact (effect.measures sound.shaped).1

theorem needleCount_afterAll (sound : machine.Sound) (calls : List Call) :
    (machine.afterAll calls).needleCount = machine.needleCount := by
  induction calls generalizing machine with
  | nil => rfl
  | cons call rest ih =>
      have sameSpec := spec_after sound call
      exact (ih (sound.after call).sound).trans (congrArg Spec.needleCount sameSpec)

theorem Reachable.validGauge (reachable : machine.Reachable) :
    checkGauge machine.gauge = .ok () := by
  refine reachable.preserves (motive := fun current => checkGauge current.gauge = .ok ())
    (fun _ => rfl) fun sound effect valid => ?_
  rcases (effect.measures sound.shaped).2 with same | ⟨_, checked⟩
  · rw [same, valid]
  · exact checked

structure Shifted (machine next : Machine) : Prop where
  setting : machine.SameSetting next
  shaped : next.Shaped
  sliders : ∀ needle : Needle, needle.slider = true → next.loops needle = machine.loops needle
  record : ∀ position, machine.onRecord position ≠ ⟨true, true⟩ →
    next.onRecord position ≠ ⟨true, true⟩

theorem Shifted.refl (shaped : machine.Shaped) : machine.Shifted machine :=
  ⟨.refl machine, shaped, fun _ _ => rfl, fun _ separate => separate⟩

theorem Shifted.trans (first : machine.Shifted next) (second : next.Shifted last) :
    machine.Shifted last where
  setting := first.setting.trans second.setting
  shaped := second.shaped
  sliders needle isSlider := (second.sliders needle isSlider).trans (first.sliders needle isSlider)
  record position separate := second.record position (first.record position separate)

theorem Shifted.needleCount (shifted : machine.Shifted next) :
    next.needleCount = machine.needleCount := by
  rw [Machine.needleCount, shifted.setting.spec]
  rfl

theorem shifted_straightened (shaped : machine.Shaped) (needles : List Needle) :
    machine.Shifted (machine.straightened needles) := by
  have undisturbed := machine.straightened_undisturbed needles
  refine ⟨sameSetting_straightened machine needles, undisturbed.shaped shaped,
    fun needle _ => undisturbed.loops needle, fun position separate => ?_⟩
  rw [onRecord_congr undisturbed.record]
  exact separate

theorem shifted_moved (shaped : machine.Shaped) {needle : Needle}
    (ordinary : needle.slider = false) (inRange : needle.position < machine.needleCount) :
    machine.Shifted (machine.moved needle needle.opposite) where
  setting := sameSetting_moved machine needle needle.opposite
  shaped := shaped.moved needle needle.opposite
  sliders slider isSlider := loops_slider_moved shaped ordinary inRange isSlider
  record position separate := by
    rw [onRecord_congr (record_moved needle needle.opposite)]
    exact separate

theorem shifted_transferred (shaped : machine.Shaped) {start : Needle}
    (ordinary : start.slider = false) (inRange : start.position < machine.needleCount) :
    machine.Shifted (machine.transferred start start.opposite) where
  setting := sameSetting_transferred machine start start.opposite
  shaped := shaped.transferred start start.opposite
  sliders slider isSlider := by
    rw [loops_transferred, loops_slider_moved shaped ordinary inRange isSlider]
  record position separate := by
    have oppositeInRange : start.opposite.position < machine.needleCount := inRange
    by_cases here : position = start.position
    · rw [here, (upToDate_transferred shaped inRange oppositeInRange).1]
      exact (presence_crossed shaped ordinary inRange).2
    · rw [(untouched_transferred shaped inRange oppositeInRange here here).record]
      exact separate

theorem shifted_after (sound : machine.Sound) {call : Call} (crosses : call.peelsOrResets = true) :
    machine.Shifted (call.after machine) := by
  rcases after_cases sound.shaped sound.known call with unchanged | ⟨lines, effect⟩
  · rw [unchanged]
    exact .refl sound.shaped
  · rcases effect.crossings crosses with
      ⟨plan, sheets, _, fits, left⟩ | ⟨plan, sheets, chosen, returns, _, fits, planned, left⟩
    · rw [left]
      exact peeled_preserves machine.Shifted
        (fun _ _ shaped ordinary inRange same => same.trans (shifted_moved shaped ordinary inRange))
        sound.shaped fits (shifted_straightened sound.shaped _)
    · rw [left]
      exact restored_preserves machine.Shifted
        (fun _ _ shaped ordinary inRange same => same.trans (shifted_moved shaped ordinary inRange))
        (fun _ _ shaped ordinary inRange same =>
          same.trans (shifted_transferred shaped ordinary inRange))
        sound.shaped fits planned (shifted_straightened sound.shaped _)

theorem shifted_afterAll (sound : machine.Sound) {calls : List Call}
    (cross : ∀ call ∈ calls, call.peelsOrResets = true) :
    machine.Shifted (machine.afterAll calls) := by
  induction calls generalizing machine with
  | nil => exact .refl sound.shaped
  | cons call rest ih =>
      exact (shifted_after sound (cross call (by simp))).trans
        (ih (sound.after call).sound fun other member => cross other (by simp [member]))

theorem checkCrossings_clear (shaped : machine.Shaped) (clear : machine.slidersAreClear = true)
    {needles : List Needle} (inRange : ∀ needle ∈ needles, needle.position < machine.needleCount) :
    machine.checkCrossings needles = .ok () := by
  have passes : ∀ needle : Needle, needle.position < machine.needleCount →
      machine.checkClear needle = .ok () := by
    intro needle here
    exact (checkClear_eq_ok shaped here).mpr
      (Or.inr (slidersAreClear_iff.mp clear needle.asSlider rfl))
  refine (forM_eq_ok needles).mpr fun needle member => then_eq_ok.mpr ⟨?_, ?_⟩
  · exact passes needle (inRange needle member)
  · exact passes needle.opposite (inRange needle member)

/-- A return of tracked loops is planned unless they are on record for both needles. -/
theorem Tracked.returnPlan_ok (tracked : machine.Tracked) {plan : PeelPlan} {sheets : List Nat}
    (fits : plan.Fits machine sheets) {chosen : Nat → Bool}
    (separate : ∀ position < machine.needleCount, chosen position = true →
      machine.onRecord position ≠ ⟨true, true⟩) :
    ∃ returns, machine.returnPlan plan chosen = .ok returns := by
  cases planned : machine.returnPlan plan chosen with
  | ok returns => exact ⟨returns, rfl⟩
  | error fault =>
      rcases bind_eq_error.mp planned with here | ⟨_, _, impossible⟩
      · obtain ⟨position, member, stuck⟩ := mapM_eq_error here
        simp only [List.mem_filter, List.mem_range] at member
        obtain ⟨sameAny, both⟩ := tracked.projected fits position
        exact absurd (returnStart_eq_error sameAny both stuck).1
          (separate position member.1 member.2)
      · exact absurd impossible pure_ne_error

/-- A sheet can be reset while all sliders are clear and nothing in its layers is on record for both
needles of a position. -/
theorem reset_succeeds (shaped : machine.Shaped) (tracked : machine.Tracked)
    (valid : checkGauge machine.gauge = .ok ()) {sheet : Nat} (inGauge : sheet < machine.gauge)
    (clear : machine.slidersAreClear = true)
    (separate : ∀ position < machine.needleCount,
      machine.layer position = machine.sheetLayer sheet position →
        machine.onRecord position ≠ ⟨true, true⟩) :
    ∃ lines next, reset sheet machine = .ok lines next := by
  have checked : checkSheet sheet machine.gauge = .ok () := by
    rw [checkSheet, then_eq_ok]
    exact ⟨valid, if_neg (Nat.not_le_of_lt inGauge)⟩
  obtain ⟨plan, planned⟩ : ∃ plan, machine.peelPlan sheet = .ok plan :=
    ⟨_, then_eq_ok.mpr ⟨checked, rfl⟩⟩
  have fits := peelPlan_fits planned
  let chosen : Nat → Bool := fun position =>
    machine.sheetOf position == sheet || plan.sameLayer.contains position
  -- A sheet lies in its own layer, so every return starts in that layer.
  have inLayer : ∀ position, chosen position = true →
      machine.layer position = machine.sheetLayer sheet position := by
    intro position isChosen
    simp only [chosen, Bool.or_eq_true, beq_iff_eq, List.contains_iff_mem] at isChosen
    rcases isChosen with ofSheet | shares
    · rw [sheetLayer, groupStart, ← ofSheet, sheetOf, Nat.div_add_mod']
    · exact layer_of_sameLayer planned shares
  obtain ⟨returns, returnsPlanned⟩ := tracked.returnPlan_ok fits
    (fun position inRange isChosen => separate position inRange (inLayer position isChosen))
  have crossings : machine.checkCrossings (plan.ordered machine ++ returns) = .ok () := by
    refine checkCrossings_clear shaped clear fun needle member => ?_
    rcases List.mem_append.mp member with moves | comesBack
    · exact fits.inRange needle (mem_ordered moves)
    · exact (returns_fit returnsPlanned comesBack).2
  rw [reset, run_get_bind, run_bind_ok (ask_ok planned)]
  rcases resetBy_run shaped fits (Text.decimal sheet) chosen with
    ⟨fault, _, refused | ⟨others, othersPlanned, refused⟩⟩ | ⟨_, _, _, ran⟩
  · rw [returnsPlanned] at refused
    cases refused
  · rw [returnsPlanned] at othersPlanned
    cases othersPlanned
    rw [crossings] at refused
    cases refused
  · exact ⟨_, _, ran⟩

/-- A reset of a sheet that is not refused brings its loops home. -/
theorem Kept.reset {position : Nat} (kept : machine.Kept current position)
    (settled : machine.Settled position) (sound : current.Sound) {call : Call}
    (resetsSheet : call.resetsSheet (current.sheetOf position) = true)
    (inRange : position < current.needleCount) {lines : List Line}
    (ran : call.act current = .ok lines next) : machine.Home next position := by
  have effect := effect_of_ok sound.shaped sound.known ran
  rcases effect.crossings (Call.peelsOrResets_of_resetsSheet resetsSheet) with
    ⟨plan, sheets, peels, _⟩ | ⟨plan, sheets, chosen, returns, resets, fits, planned, left⟩
  · rw [peels.resetsNone] at resetsSheet
    cases resetsSheet
  · obtain ⟨isChosen, stays⟩ := resets.chooses resetsSheet
    rw [left]
    exact (kept.restored settled sound fits planned).2 inRange isChosen stays

/-- The loops of each position of a sheet have stayed together, in order, and a reset of the sheet
brings them back to where they were. -/
structure Restorable (machine current : Machine) (sheet : Nat) : Prop where
  together : ∀ position < machine.needleCount, position % machine.gauge = sheet →
    current.loops (.front position) ++ current.loops (.back position) =
        machine.loops (.front position) ++ machine.loops (.back position) ∧
      (current.loops (.front position) = [] ∨ current.loops (.back position) = [])
  sliders : ∀ position < machine.needleCount, position % machine.gauge = sheet → ∀ side,
    current.loops ⟨side, position, true⟩ = machine.loops ⟨side, position, true⟩
  home : ∀ (call : Call) (lines : List Line) (next : Machine), call.resetsSheet sheet = true →
    call.act current = .ok lines next →
      ∀ position < machine.needleCount, position % machine.gauge = sheet →
        next.loops (.front position) = machine.loops (.front position) ∧
          next.loops (.back position) = machine.loops (.back position)

theorem restorable_of_kept (sound : current.Sound)
    (sameCount : current.needleCount = machine.needleCount) {sheet : Nat}
    (settled : ∀ position < machine.needleCount, position % machine.gauge = sheet →
      machine.Settled position)
    (keeps : ∀ position < machine.needleCount, position % machine.gauge = sheet →
      machine.Kept current position ∧ current.gauge = machine.gauge) :
    machine.Restorable current sheet := by
  refine ⟨?_, ?_, ?_⟩
  · intro position inRange ofSheet
    have kept := (keeps position inRange ofSheet).1
    have isSettled := settled position inRange ofSheet
    refine ⟨(kept.whole isSettled).1, ?_⟩
    rcases kept.needles with ⟨front, back⟩ | ⟨front, back⟩
    · rw [front, back]
      exact isSettled.oneSided
    · rw [front, back]
      exact isSettled.oneSided.symm
  · exact fun position inRange ofSheet => (keeps position inRange ofSheet).1.sliders
  · intro call lines next resetsSheet ran position inRange ofSheet
    obtain ⟨kept, sameGauge⟩ := keeps position inRange ofSheet
    refine kept.reset (settled position inRange ofSheet) sound ?_ ?_ ran
    · rw [sheetOf, sameGauge, ofSheet]
      exact resetsSheet
    · exact sameCount.symm ▸ inRange

/-- What lets a sheet be reset still does when loops have been moved across. -/
theorem Shifted.reset_succeeds (shifted : machine.Shifted current) (reachable : current.Reachable)
    {sheet : Nat} (inGauge : sheet < machine.gauge) (clear : machine.slidersAreClear = true)
    (separate : ∀ position < machine.needleCount,
      machine.layer position = machine.sheetLayer sheet position →
        machine.onRecord position ≠ ⟨true, true⟩) :
    ∃ lines next, reset sheet current = .ok lines next := by
  have stillClear : current.slidersAreClear = true := by
    refine slidersAreClear_iff.mpr fun needle isSlider => ?_
    rw [shifted.sliders needle isSlider]
    exact slidersAreClear_iff.mp clear needle isSlider
  have stillInGauge : sheet < current.gauge := by rwa [shifted.setting.gauge]
  refine Machine.reset_succeeds shifted.shaped reachable.tracked reachable.validGauge stillInGauge
    stillClear ?_
  intro position inRange sameLayer
  rw [shifted.needleCount] at inRange
  rw [shifted.setting.layer, shifted.setting.sheetLayer] at sameLayer
  exact shifted.record position (separate position inRange sameLayer)

/-- Every run that spares a sheet leaves it restorable. After a run of peels and resets only, the
sheet can be reset while sliders are clear and no other loops in its layer are on record for both
needles. -/
theorem sheet_isolated {machine : Machine} (reachable : machine.Reachable) {sheet : Nat}
    (inGauge : sheet < machine.gauge)
    (settled : ∀ position < machine.needleCount, position % machine.gauge = sheet →
      machine.recordAt position = machine.presenceAt position ∧
        (machine.loops (.front position) = [] ∨ machine.loops (.back position) = []))
    {calls : List Call} (spares : ∀ call ∈ calls, call.Spares machine.gauge sheet) :
    machine.Restorable (machine.afterAll calls) sheet ∧
      ((∀ call ∈ calls, call.peelsOrResets = true) →
        machine.SameSetting (machine.afterAll calls) ∧
          (machine.slidersAreClear = true →
            (∀ position < machine.needleCount, position % machine.gauge ≠ sheet →
              machine.layer position = machine.sheetLayer sheet position →
                machine.recordAt position ≠ .ok ⟨true, true⟩) →
            ∃ lines next, reset sheet (machine.afterAll calls) = .ok lines next)) := by
  have sound := reachable.sound
  have later := reachable.afterAll calls
  have settledAt : ∀ position < machine.needleCount, position % machine.gauge = sheet →
      machine.Settled position := by
    intro position inRange ofSheet
    obtain ⟨recorded, oneSided⟩ := settled position inRange ofSheet
    rw [recordAt_ok inRange, presenceAt_ok sound.shaped inRange] at recorded
    exact ⟨Except.ok.inj recorded, oneSided⟩
  constructor
  · refine restorable_of_kept later.sound (needleCount_afterAll sound calls) settledAt ?_
    intro position inRange ofSheet
    refine (Kept.refl machine position).afterAll (settledAt position inRange ofSheet) sound rfl ?_
    rwa [ofSheet]
  · intro crosses
    have shifted := shifted_afterAll sound crosses
    refine ⟨shifted.setting, fun clear separate => shifted.reset_succeeds later inGauge clear ?_⟩
    intro position inRange sameLayer
    by_cases ofSheet : position % machine.gauge = sheet
    · exact (settledAt position inRange ofSheet).separate
    · intro both
      exact separate position inRange ofSheet sameLayer (by rw [recordAt_ok inRange, both])

def oneLoop : Machine :=
  (initial twoNeedles).afterAll [.apply (.inhook ⟨1⟩), .apply (.tuck (.back 0) [⟨1⟩] none),
    .apply (.gauge 2)]

theorem sheet_isolated_oneLoop :
    (oneLoop.afterAll [.apply (.peel 1)]).loops (.front 0) = [⟨0⟩] ∧
      oneLoop.Restorable (oneLoop.afterAll [.apply (.peel 1)]) 0 ∧
        ∃ lines next, reset 0 (oneLoop.afterAll [.apply (.peel 1)]) = .ok lines next := by
  have reachable : oneLoop.Reachable := reachable_twoNeedles _
  have settled : ∀ position < oneLoop.needleCount, position % oneLoop.gauge = 0 →
      oneLoop.recordAt position = oneLoop.presenceAt position ∧
        (oneLoop.loops (.front position) = [] ∨ oneLoop.loops (.back position) = []) := by
    have facts : ∀ position < oneLoop.needleCount,
        oneLoop.onRecord position = oneLoop.presence position ∧
          (oneLoop.loops (.front position) = [] ∨ oneLoop.loops (.back position) = []) := by
      decide +kernel
    intro position inRange _
    rw [recordAt_ok inRange, presenceAt_ok reachable.sound.shaped inRange,
      (facts position inRange).1]
    exact ⟨rfl, (facts position inRange).2⟩
  have spares : ∀ call ∈ [Call.apply (.peel 1)], call.Spares oneLoop.gauge 0 := by
    intro call member
    cases List.mem_singleton.mp member
    exact ⟨fun _ named => absurd named List.not_mem_nil, fun _ same => by cases same⟩
  have isolated := sheet_isolated reachable (by decide +kernel) settled spares
  refine ⟨by decide +kernel, isolated.1, (isolated.2 (by decide)).2 (by decide +kernel) ?_⟩
  have apart : ∀ position < oneLoop.needleCount, oneLoop.onRecord position ≠ ⟨true, true⟩ := by
    decide +kernel
  intro position inRange _ _ both
  rw [recordAt_ok inRange] at both
  exact apart position inRange (Except.ok.inj both)

end Machine

end VBed
