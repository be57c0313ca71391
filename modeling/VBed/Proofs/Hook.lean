import Mathlib.Algebra.Ring.Nat
import VBed.Proofs.CarrierWrites

/-!
One hook serves all carriers, and both the system and the carriers keep a note of whose yarn it
holds. The two notes agree after every run of moves. Each move has one arrow, from the states where
it is allowed to the state that it leads to, and a refused move writes nothing. The segment and the
count of a carrier tell of the moves that were made.
-/

namespace VBed

namespace Move

/-- The number of loops made with a carrier since its yarn was last put on the hook, taken off it or
cut. -/
def loopsSinceRelease (id : CarrierId) (history : List Move) : Nat :=
  ((history.reverse.takeWhile fun move => !move.releases id).map (·.loopsWith id)).sum

theorem loopsSinceRelease_append (id : CarrierId) (history : List Move) (move : Move) :
    loopsSinceRelease id (history ++ [move]) =
      if move.releases id then 0 else loopsSinceRelease id history + move.loopsWith id := by
  rw [loopsSinceRelease, List.reverse_append, List.reverse_singleton, List.singleton_append,
    List.takeWhile_cons]
  cases move.releases id with
  | true => rfl
  | false => simp [loopsSinceRelease, Nat.add_comm]

example :
    loopsSinceRelease ⟨1⟩ [.inhook ⟨1⟩, .makeLoop [⟨1⟩, ⟨2⟩, ⟨1⟩], .releasehook ⟨2⟩,
      .makeLoop [⟨1⟩]] = 3 := by
  decide

/-- The states that a move leads a carrier from and to. Loops are made in service, on the hook or
off it. -/
inductive Leads : Move → Carrier.State → Carrier.State → Prop
  | bringIn {id : CarrierId} : Leads (bringIn id) .inactive .active
  | inhook {id : CarrierId} : Leads (inhook id) .inactive .hooked
  | releasehook {id : CarrierId} : Leads (releasehook id) .hooked .active
  | out {id : CarrierId} : Leads (out id) .active .inactive
  | outhook {id : CarrierId} : Leads (outhook id) .active .inactive
  | makeLoop {carriers : CarrierSet} {state : Carrier.State} (inService : state ≠ .inactive) :
      Leads (makeLoop carriers) state state

end Move

namespace Carrier

variable {carrier : Carrier}

theorem state_eq_inactive : carrier.state = .inactive ↔ carrier.active = false := by
  rw [state]
  cases carrier.active <;> cases carrier.hooked <;> simp

theorem state_eq_active :
    carrier.state = .active ↔ carrier.active = true ∧ carrier.hooked = false := by
  rw [state]
  cases carrier.active <;> cases carrier.hooked <;> simp

theorem state_eq_hooked :
    carrier.state = .hooked ↔ carrier.active = true ∧ carrier.hooked = true := by
  rw [state]
  cases carrier.active <;> cases carrier.hooked <;> simp

end Carrier

namespace CarrierSystem

variable {system next : CarrierSystem}

structure Agrees (system : CarrierSystem) : Prop where
  identity : ∀ id carrier, system.carrier? id = some carrier →
    carrier.id = id ∧ carrier.yarn.carrier = id
  hook : ∀ id, system.hooked = some id ↔
    ∃ carrier, system.carrier? id = some carrier ∧ carrier.hooked = true
  active : ∀ id carrier, system.carrier? id = some carrier → carrier.hooked = true →
    carrier.active = true

structure Remembers (system : CarrierSystem) (history : List Move) : Prop where
  segment : ∀ id carrier, system.carrier? id = some carrier →
    carrier.yarn.segment = history.count (.outhook id) % Yarn.segmentCount
  counted : ∀ id carrier, system.carrier? id = some carrier →
    carrier.loopsSinceRelease = Move.loopsSinceRelease id history % Text.wordCount

theorem carrier?_isSome (id : CarrierId) :
    (system.carrier? id).isSome ↔ 1 ≤ id.number ∧ id.number ≤ system.count := by
  simp only [carrier?, count]
  split
  · rename_i unnumbered
    simp [unnumbered]
  · rename_i numbered
    rw [isSome_getElem?]
    omega

theorem parked_of_carrier? {carrierCount hookSize : Nat} {id : CarrierId} {carrier : Carrier}
    (found : (of carrierCount hookSize).carrier? id = some carrier) :
    carrier = Carrier.parked id := by
  simp only [carrier?, of] at found
  split at found
  · cases found
  · rename_i numbered
    obtain ⟨inRange, here⟩ := Array.getElem?_eq_some_iff.mp found
    rw [← here, Array.getElem_ofFn, Nat.sub_add_cancel (Nat.pos_of_ne_zero numbered)]

theorem agrees_of (carrierCount hookSize : Nat) : (of carrierCount hookSize).Agrees := by
  constructor
  · intro id carrier found
    rw [parked_of_carrier? found]
    exact ⟨rfl, rfl⟩
  · intro id
    constructor
    · intro hooked
      cases hooked
    · rintro ⟨carrier, found, hooked⟩
      rw [parked_of_carrier? found] at hooked
      cases hooked
  · intro id carrier found hooked
    rw [parked_of_carrier? found] at hooked
    cases hooked

theorem Moved.origin {move : Move} (moved : system.Moved move next) {id : CarrierId}
    {carrier : Carrier} (found : next.carrier? id = some carrier) :
    ∃ before, system.carrier? id = some before ∧ move.changed id before = carrier := by
  rw [moved.carrier, Option.map_eq_some_iff] at found
  exact found

theorem Agrees.hook_act {move : Move} (agrees : system.Agrees) (ran : move.act system = .ok next)
    (id : CarrierId) :
    next.hooked = some id ↔ ∃ carrier, next.carrier? id = some carrier ∧ carrier.hooked = true := by
  have moved := act_moved ran
  have allowed := (allows_iff _).mp ⟨next, ran⟩
  have flagged : (∃ carrier, next.carrier? id = some carrier ∧ carrier.hooked = true) ↔
      ∃ before, system.carrier? id = some before ∧ (move.changed id before).hooked = true := by
    simp only [moved.carrier, Option.map_eq_some_iff]
    constructor
    · rintro ⟨_, ⟨before, found, rfl⟩, hooked⟩
      exact ⟨before, found, hooked⟩
    · rintro ⟨before, found, hooked⟩
      exact ⟨_, ⟨before, found, rfl⟩, hooked⟩
  rw [moved.hooked, flagged]
  simp only [Move.hooked_changed]
  cases move with
  | inhook other =>
      obtain ⟨carrier, found, _, _, free⟩ := allowed
      have nobody := agrees.hook id
      rw [free] at nobody
      by_cases here : other = id
      · subst other
        simpa [Move.hookedAfter] using ⟨carrier, found⟩
      · simpa [Move.hookedAfter, here] using nobody
  | releasehook other =>
      have onHook := (agrees.hook other).mpr allowed
      have sole := agrees.hook id
      rw [onHook] at sole
      by_cases here : other = id
      · simp [Move.hookedAfter, onHook, here]
      · simpa [Move.hookedAfter, onHook, here] using sole
  | _ => simpa [Move.hookedAfter] using agrees.hook id

/-- A carrier that leaves is off the hook, so none that is on it becomes inactive. -/
theorem stays_of_hooked {move : Move} (ran : move.act system = .ok next) {id : CarrierId}
    {carrier : Carrier} (found : system.carrier? id = some carrier)
    (hooked : carrier.hooked = true) : ¬(move = .out id ∨ move = .outhook id) := by
  have allowed := (allows_iff _).mp ⟨next, ran⟩
  intro leaves
  obtain ⟨same, foundSame, _, unhooked⟩ : ∃ same, system.carrier? id = some same ∧
      same.active = true ∧ same.hooked = false := by
    rcases leaves with rfl | rfl <;> exact allowed
  rw [foundSame] at found
  cases found
  rw [unhooked] at hooked
  cases hooked

theorem Agrees.act {move : Move} (agrees : system.Agrees) (ran : move.act system = .ok next) :
    next.Agrees := by
  have moved := act_moved ran
  refine ⟨?_, agrees.hook_act ran, ?_⟩
  · intro id carrier found
    obtain ⟨before, foundBefore, rfl⟩ := moved.origin found
    rw [Move.id_changed, Move.yarn_carrier_changed]
    exact agrees.identity id before foundBefore
  · intro id carrier found hooked
    obtain ⟨before, foundBefore, rfl⟩ := moved.origin found
    rw [Move.hooked_changed] at hooked
    rw [Move.active_changed]
    by_cases comes : move = .inhook id
    · simp [comes]
    · rw [if_neg comes] at hooked
      split at hooked
      · cases hooked
      · have active := agrees.active id before foundBefore hooked
        simp [stays_of_hooked ran foundBefore hooked, comes, active]

theorem Remembers.act {move : Move} {history : List Move} (remembers : system.Remembers history)
    (ran : move.act system = .ok next) : next.Remembers (history ++ [move]) := by
  have moved := act_moved ran
  constructor
  · intro id carrier found
    obtain ⟨before, foundBefore, rfl⟩ := moved.origin found
    rw [Move.segment_changed, remembers.segment id before foundBefore, List.count_append,
      List.count_singleton]
    by_cases cuts : move = .outhook id
    · simp [cuts, Nat.add_mod]
    · simp [cuts]
  · intro id carrier found
    obtain ⟨before, foundBefore, rfl⟩ := moved.origin found
    rw [Move.loopsSinceRelease_changed, Move.loopsSinceRelease_append,
      remembers.counted id before foundBefore]
    split
    · rfl
    · split
      · rename_i makesNone
        rw [makesNone, Nat.add_zero]
      · rw [Nat.mod_add_mod]

/-- A carrier that is out of service is off the hook. -/
theorem Agrees.unhooked (agrees : system.Agrees) {id : CarrierId} {carrier : Carrier}
    (found : system.carrier? id = some carrier) (inactive : carrier.active = false) :
    carrier.hooked = false := by
  cases hooked : carrier.hooked with
  | false => rfl
  | true =>
      rw [agrees.active id carrier found hooked] at inactive
      cases inactive

theorem Agrees.leads (agrees : system.Agrees) {move : Move} (ran : move.act system = .ok next)
    {id : CarrierId} (named : id ∈ move.named) :
    ∃ before after, system.carrier? id = some before ∧ next.carrier? id = some after ∧
      move.Leads before.state after.state := by
  suffices leads : ∃ before, system.carrier? id = some before ∧
      move.Leads before.state (move.changed id before).state by
    obtain ⟨before, found, leads⟩ := leads
    exact ⟨before, _, found, by rw [(act_moved ran).carrier, found, Option.map_some], leads⟩
  have allowed := (allows_iff _).mp ⟨next, ran⟩
  cases move with
  | makeLoop carriers =>
      obtain ⟨before, found, active⟩ := allowed id named
      have start : before.state ≠ .inactive := by simp [Carrier.state_eq_inactive, active]
      have finish : ((Move.makeLoop carriers).changed id before).state = before.state := by
        simp [Carrier.state, Move.hooked_changed, Move.active_changed]
      refine ⟨before, found, ?_⟩
      rw [finish]
      exact .makeLoop start
  | bringIn other =>
      obtain rfl := List.mem_singleton.mp named
      obtain ⟨before, found, inactive⟩ := allowed
      have start := Carrier.state_eq_inactive.mpr inactive
      have finish : ((Move.bringIn id).changed id before).state = .active := by
        simp [Carrier.state_eq_active, Move.changed, agrees.unhooked found inactive]
      refine ⟨before, found, ?_⟩
      rw [start, finish]
      exact .bringIn
  | inhook other =>
      obtain rfl := List.mem_singleton.mp named
      obtain ⟨before, found, inactive, _, _⟩ := allowed
      have start := Carrier.state_eq_inactive.mpr inactive
      have finish : ((Move.inhook id).changed id before).state = .hooked := by
        simp [Carrier.state_eq_hooked, Move.changed]
      refine ⟨before, found, ?_⟩
      rw [start, finish]
      exact .inhook
  | releasehook other =>
      obtain rfl := List.mem_singleton.mp named
      obtain ⟨before, found, hooked⟩ := allowed
      have active := agrees.active id before found hooked
      have start := Carrier.state_eq_hooked.mpr ⟨active, hooked⟩
      have finish : ((Move.releasehook id).changed id before).state = .active := by
        simp [Carrier.state_eq_active, Move.changed, active]
      refine ⟨before, found, ?_⟩
      rw [start, finish]
      exact .releasehook
  | out other =>
      obtain rfl := List.mem_singleton.mp named
      obtain ⟨before, found, inService⟩ := allowed
      have start := Carrier.state_eq_active.mpr inService
      have finish : ((Move.out id).changed id before).state = .inactive := by
        simp [Carrier.state_eq_inactive, Move.changed]
      refine ⟨before, found, ?_⟩
      rw [start, finish]
      exact .out
  | outhook other =>
      obtain rfl := List.mem_singleton.mp named
      obtain ⟨before, found, inService⟩ := allowed
      have start := Carrier.state_eq_active.mpr inService
      have finish : ((Move.outhook id).changed id before).state = .inactive := by
        simp [Carrier.state_eq_inactive, Move.changed]
      refine ⟨before, found, ?_⟩
      rw [start, finish]
      exact .outhook

theorem after_of_ok {move : Move} (ran : move.act system = .ok next) :
    move.after system = next := by
  rw [Move.after, ran]

theorem after_of_error {move : Move} {fault : Fault} (refused : move.act system = .error fault) :
    move.after system = system := by
  rw [Move.after, refused]

def afterAll (system : CarrierSystem) (moves : List Move) : CarrierSystem :=
  moves.foldl (fun current move => move.after current) system

def performed (system : CarrierSystem) : List Move → List Move
  | [] => []
  | move :: rest =>
      match move.act system with
      | .ok next => move :: next.performed rest
      | .error _ => system.performed rest

@[simp] theorem afterAll_cons (move : Move) (rest : List Move) :
    system.afterAll (move :: rest) = (move.after system).afterAll rest := rfl

theorem Agrees.afterAll (agrees : system.Agrees) (moves : List Move) :
    (system.afterAll moves).Agrees := by
  induction moves generalizing system with
  | nil => exact agrees
  | cons move rest ih =>
      rw [afterAll_cons]
      cases ran : move.act system with
      | ok next =>
          rw [after_of_ok ran]
          exact ih (agrees.act ran)
      | error fault =>
          rw [after_of_error ran]
          exact ih agrees

theorem Remembers.afterAll {history : List Move} (remembers : system.Remembers history)
    (moves : List Move) :
    (system.afterAll moves).Remembers (history ++ system.performed moves) := by
  induction moves generalizing system history with
  | nil =>
      rw [performed, List.append_nil]
      exact remembers
  | cons move rest ih =>
      rw [afterAll_cons, performed]
      cases ran : move.act system with
      | ok next =>
          have onward := ih (remembers.act ran)
          rw [List.append_assoc] at onward
          rw [after_of_ok ran]
          exact onward
      | error fault =>
          rw [after_of_error ran]
          exact ih remembers

theorem count_afterAll (moves : List Move) : (system.afterAll moves).count = system.count := by
  induction moves generalizing system with
  | nil => rfl
  | cons move rest ih =>
      rw [afterAll_cons, ih]
      cases ran : move.act system with
      | ok next => rw [after_of_ok ran, (act_moved ran).count]
      | error fault => rw [after_of_error ran]

theorem remembers_of (carrierCount hookSize : Nat) :
    (of carrierCount hookSize).Remembers [] := by
  constructor
  · intro id carrier found
    rw [parked_of_carrier? found]
    rfl
  · intro id carrier found
    rw [parked_of_carrier? found]
    rfl

/-- One hook between numbered carriers: which moves succeed in a state, what a success makes of the
carriers and of the hook, and what the carriers tell of the moves that led to the state. -/
structure OneHook (system : CarrierSystem) (carrierCount : Nat) (history : List Move) : Prop where
  numbered : ∀ id, (∃ carrier, system.carrier id = .ok carrier) ↔
    1 ≤ id.number ∧ id.number ≤ carrierCount
  identity : ∀ id carrier, system.carrier id = .ok carrier →
    carrier.id = id ∧ carrier.yarn.carrier = id
  hook : ∀ id, system.hooked = some id ↔
    ∃ carrier, system.carrier id = .ok carrier ∧ carrier.hooked = true
  single : ∀ first second firstCarrier secondCarrier, system.carrier first = .ok firstCarrier →
    system.carrier second = .ok secondCarrier → firstCarrier.hooked = true →
      secondCarrier.hooked = true → first = second
  active : ∀ id carrier, system.carrier id = .ok carrier → carrier.hooked = true →
    carrier.active = true
  bringIn : ∀ id, (∃ next, system.bringIn id = .ok next) ↔
    ∃ carrier, system.carrier id = .ok carrier ∧ carrier.active = false
  inhook : ∀ id, (∃ next, system.inhook id = .ok next) ↔
    (∃ carrier, system.carrier id = .ok carrier ∧ carrier.active = false) ∧ system.hooked = none
  inhookFault : ∀ id fault, system.inhook id = .error fault → fault.code ≠ "CARRIER_STILL_HOOKED"
  releasehook : ∀ id, (∃ next, system.releasehook id = .ok next) ↔ system.hooked = some id
  out : ∀ id, (∃ next, system.out id = .ok next) ↔
    ∃ carrier, system.carrier id = .ok carrier ∧ carrier.active = true ∧ carrier.hooked = false
  outhook : ∀ id, (∃ next, system.outhook id = .ok next) ↔
    ∃ carrier, system.carrier id = .ok carrier ∧ carrier.active = true ∧ carrier.hooked = false
  makeLoop : ∀ carriers, (∃ result, system.makeLoop carriers = .ok result) ↔
    ∀ id ∈ carriers, system.isActive id = true
  moved : ∀ (move : Move) (next : CarrierSystem), move.act system = .ok next →
    system.Moved move next
  leads : ∀ (move : Move) (next : CarrierSystem), move.act system = .ok next →
    ∀ id ∈ move.named, ∃ before after, system.carrier id = .ok before ∧
      next.carrier id = .ok after ∧ move.Leads before.state after.state
  others : ∀ (move : Move) (next : CarrierSystem), move.act system = .ok next →
    ∀ id, id ∉ move.named → next.carrier id = system.carrier id
  written : ∀ move : Move, move.write system =
    match move.act system with
    | .ok next => .ok () next
    | .error fault => .error fault system
  segment : ∀ id carrier, system.carrier id = .ok carrier →
    history.count (.outhook id) < Yarn.segmentCount →
      carrier.yarn.segment = history.count (.outhook id)
  counted : ∀ id carrier, system.carrier id = .ok carrier →
    carrier.loopsSinceRelease = Move.loopsSinceRelease id history % Text.wordCount

theorem Agrees.allows_inhook (agrees : system.Agrees) {id : CarrierId} :
    system.Allows (.inhook id) ↔
      (∃ carrier, system.carrier? id = some carrier ∧ carrier.active = false) ∧
        system.hooked = none := by
  constructor
  · rintro ⟨carrier, found, inactive, _, free⟩
    exact ⟨⟨carrier, found, inactive⟩, free⟩
  · rintro ⟨⟨carrier, found, inactive⟩, free⟩
    exact ⟨carrier, found, inactive, agrees.unhooked found inactive, free⟩

theorem Agrees.inhook_fault (agrees : system.Agrees) {id : CarrierId} {fault : Fault}
    (refused : system.inhook id = .error fault) : fault.code ≠ "CARRIER_STILL_HOOKED" := by
  have notAllowed : ¬system.Allows (.inhook id) := by
    intro allowed
    obtain ⟨next, ran⟩ := (allows_iff _).mpr allowed
    rw [Move.act, refused] at ran
    cases ran
  rw [agrees.allows_inhook] at notAllowed
  cases found : system.carrier? id with
  | none =>
      simp only [inhook, CarrierSystem.carrier, found] at refused
      cases refused
      simp [Fault.code]
  | some carrier =>
      simp only [inhook, CarrierSystem.carrier, found] at refused
      change (if carrier.active = true then _ else _) = _ at refused
      split at refused
      · cases refused
        simp [Fault.code]
      · rename_i inactive
        cases hook : system.hooked with
        | some other =>
            rw [hook] at refused
            cases refused
            simp [Fault.code]
        | none => exact absurd ⟨⟨carrier, found, by simpa using inactive⟩, hook⟩ notAllowed

theorem isActive_iff {id : CarrierId} :
    system.isActive id = true ↔
      ∃ carrier, system.carrier? id = some carrier ∧ carrier.active = true := by
  rw [isActive]
  cases system.carrier? id <;> simp

theorem carrier_congr {id : CarrierId} (same : next.carrier? id = system.carrier? id)
    (count : next.count = system.count) : next.carrier id = system.carrier id := by
  simp only [CarrierSystem.carrier, same, count]

theorem oneHook_afterAll (carrierCount hookSize : Nat) (moves : List Move) :
    ((of carrierCount hookSize).afterAll moves).OneHook carrierCount
      ((of carrierCount hookSize).performed moves) := by
  have agrees := (agrees_of carrierCount hookSize).afterAll moves
  have remembers := (remembers_of carrierCount hookSize).afterAll moves
  rw [List.nil_append] at remembers
  have count : ((of carrierCount hookSize).afterAll moves).count = carrierCount :=
    (count_afterAll moves).trans Array.size_ofFn
  generalize (of carrierCount hookSize).afterAll moves = system at *
  constructor <;> try simp only [carrier_eq_ok]
  · intro id
    rw [← Option.isSome_iff_exists, carrier?_isSome, count]
  · exact agrees.identity
  · exact agrees.hook
  · intro first second firstCarrier secondCarrier foundFirst foundSecond firstHooked secondHooked
    have onHook := (agrees.hook first).mpr ⟨firstCarrier, foundFirst, firstHooked⟩
    rw [(agrees.hook second).mpr ⟨secondCarrier, foundSecond, secondHooked⟩] at onHook
    exact (Option.some.inj onHook).symm
  · exact agrees.active
  · exact fun id => allows_iff (.bringIn id)
  · exact fun id => (allows_iff (.inhook id)).trans agrees.allows_inhook
  · exact fun id fault => agrees.inhook_fault
  · exact fun id => (allows_iff (.releasehook id)).trans (agrees.hook id).symm
  · exact fun id => allows_iff (.out id)
  · exact fun id => allows_iff (.outhook id)
  · intro carriers
    simp only [isActive_iff]
    exact exists_makeLoop_iff
  · exact fun move next ran => act_moved ran
  · exact fun move next ran id named => agrees.leads ran named
  · intro move next ran id apart
    have moved := act_moved ran
    refine carrier_congr ?_ moved.count
    rw [moved.carrier]
    cases system.carrier? id with
    | none => rfl
    | some carrier => rw [Option.map_some, Move.changed_of_notNamed apart]
  · exact fun move => move.write_run system
  · intro id carrier found bounded
    rw [remembers.segment id carrier found, Nat.mod_eq_of_lt bounded]
  · exact remembers.counted

theorem oneHook_afterAll_exchange :
    let moves : List Move := [.inhook ⟨1⟩, .makeLoop [⟨1⟩, ⟨1⟩], .inhook ⟨2⟩, .releasehook ⟨1⟩,
      .bringIn ⟨3⟩, .outhook ⟨1⟩, .inhook ⟨2⟩, .out ⟨3⟩, .makeLoop [⟨2⟩]]
    let made : List Move := [.inhook ⟨1⟩, .makeLoop [⟨1⟩, ⟨1⟩], .releasehook ⟨1⟩,
      .bringIn ⟨3⟩, .outhook ⟨1⟩, .inhook ⟨2⟩, .out ⟨3⟩, .makeLoop [⟨2⟩]]
    let system := (of 3 5).afterAll moves
    (of 3 5).performed moves = made ∧ system.OneHook 3 made ∧ system.hooked = some ⟨2⟩ ∧
      system.carrier? ⟨1⟩ = some ⟨⟨1⟩, ⟨⟨1⟩, 1⟩, false, false, 0⟩ ∧
      system.carrier? ⟨2⟩ = some ⟨⟨2⟩, ⟨⟨2⟩, 0⟩, true, true, 1⟩ ∧
      system.carrier? ⟨3⟩ = some ⟨⟨3⟩, ⟨⟨3⟩, 0⟩, false, false, 0⟩ := by
  intro moves made system
  have performed : (of 3 5).performed moves = made := by decide
  refine ⟨performed, ?_, by decide, by decide, by decide, by decide⟩
  rw [← performed]
  exact oneHook_afterAll 3 5 moves

end CarrierSystem

end VBed
