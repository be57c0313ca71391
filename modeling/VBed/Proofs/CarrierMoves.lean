import VBed.Proofs.Work

/-!
The moves of carriers. What a move that succeeds does to each carrier is written out once, in
`Moved`, and `allows_iff` says which moves succeed.
-/

namespace VBed

inductive Move where
  | bringIn (id : CarrierId)
  | inhook (id : CarrierId)
  | releasehook (id : CarrierId)
  | out (id : CarrierId)
  | outhook (id : CarrierId)
  | makeLoop (carriers : CarrierSet)
deriving DecidableEq

def Carrier.countLoops (carrier : Carrier) (count : Nat) : Carrier :=
  if count = 0 then carrier
  else
    { carrier with loopsSinceRelease := (carrier.loopsSinceRelease + count) % Text.wordCount }

namespace Move

def act : Move → CarrierSystem → Except Fault CarrierSystem
  | bringIn id, system => system.bringIn id
  | inhook id, system => system.inhook id
  | releasehook id, system => system.releasehook id
  | out id, system => system.out id
  | outhook id, system => system.outhook id
  | makeLoop carriers, system => do return (← system.makeLoop carriers).2

def after (move : Move) (system : CarrierSystem) : CarrierSystem :=
  match move.act system with
  | .ok next => next
  | .error _ => system

def named : Move → CarrierSet
  | bringIn id => [id]
  | inhook id => [id]
  | releasehook id => [id]
  | out id => [id]
  | outhook id => [id]
  | makeLoop carriers => carriers

def releases (id : CarrierId) : Move → Bool
  | inhook other => other = id
  | releasehook other => other = id
  | outhook other => other = id
  | _ => false

def loopsWith (id : CarrierId) : Move → Nat
  | makeLoop carriers => carriers.count id
  | _ => 0

def changed (id : CarrierId) (carrier : Carrier) : Move → Carrier
  | bringIn other => if other = id then { carrier with active := true } else carrier
  | inhook other =>
      if other = id then { carrier with active := true, hooked := true, loopsSinceRelease := 0 }
      else carrier
  | releasehook other =>
      if other = id then { carrier with hooked := false, loopsSinceRelease := 0 } else carrier
  | out other => if other = id then { carrier with active := false } else carrier
  | outhook other =>
      if other = id then
        { carrier with active := false, yarn := carrier.yarn.cut, loopsSinceRelease := 0 }
      else carrier
  | makeLoop carriers => carrier.countLoops (carriers.count id)

def hookedAfter (hooked : Option CarrierId) : Move → Option CarrierId
  | inhook id => some id
  | releasehook id => if hooked = some id then none else hooked
  | _ => hooked

@[simp] theorem id_changed (id : CarrierId) (carrier : Carrier) (move : Move) :
    (move.changed id carrier).id = carrier.id := by
  cases move <;> simp only [changed, Carrier.countLoops] <;> split <;> rfl

@[simp] theorem yarn_carrier_changed (id : CarrierId) (carrier : Carrier) (move : Move) :
    (move.changed id carrier).yarn.carrier = carrier.yarn.carrier := by
  cases move <;> simp only [changed, Carrier.countLoops] <;> split <;> rfl

theorem hooked_changed (id : CarrierId) (carrier : Carrier) (move : Move) :
    (move.changed id carrier).hooked =
      if move = inhook id then true
      else if move = releasehook id then false
      else carrier.hooked := by
  cases move <;> simp only [changed, Carrier.countLoops] <;> split <;> simp_all

theorem active_changed (id : CarrierId) (carrier : Carrier) (move : Move) :
    (move.changed id carrier).active =
      if move = out id ∨ move = outhook id then false
      else if move = bringIn id ∨ move = inhook id then true
      else carrier.active := by
  cases move <;> simp only [changed, Carrier.countLoops] <;> split <;> simp_all

theorem segment_changed (id : CarrierId) (carrier : Carrier) (move : Move) :
    (move.changed id carrier).yarn.segment =
      if move = outhook id then (carrier.yarn.segment + 1) % Yarn.segmentCount
      else carrier.yarn.segment := by
  cases move <;> simp only [changed, Carrier.countLoops] <;> split <;> simp_all [Yarn.cut]

theorem loopsSinceRelease_changed (id : CarrierId) (carrier : Carrier) (move : Move) :
    (move.changed id carrier).loopsSinceRelease =
      if move.releases id then 0
      else if move.loopsWith id = 0 then carrier.loopsSinceRelease
      else (carrier.loopsSinceRelease + move.loopsWith id) % Text.wordCount := by
  cases move <;> simp only [changed, Carrier.countLoops, releases, loopsWith] <;> split <;> simp_all

theorem changed_of_notNamed {move : Move} {id : CarrierId} (apart : id ∉ move.named)
    (carrier : Carrier) : move.changed id carrier = carrier := by
  cases move with
  | makeLoop carriers =>
      have unfed : carriers.count id = 0 := List.count_eq_zero.mpr apart
      rw [changed, unfed]
      rfl
  | _ =>
      simp only [named, List.mem_singleton] at apart
      simp only [changed, if_neg (Ne.symm apart)]

end Move

namespace Carrier

variable {carrier changed : Carrier}

theorem countLoops_countLoop (carrier : Carrier) (count : Nat) :
    carrier.countLoop.countLoops count = carrier.countLoops (count + 1) := by
  by_cases none : count = 0
  · simp [countLoops, countLoop, none]
  · simp only [countLoops, countLoop, none, if_false, Nat.succ_ne_zero, Nat.mod_add_mod,
      Nat.add_assoc, Nat.add_comm 1]

theorem bringIn_eq_ok :
    carrier.bringIn = .ok changed ↔
      carrier.active = false ∧ { carrier with active := true } = changed := by
  simp only [bringIn, throw_bind, refusal_eq_ok, pure_eq_ok, Bool.not_eq_true]

theorem inhook_eq_ok :
    carrier.inhook = .ok changed ↔
      carrier.active = false ∧ carrier.hooked = false ∧
        { carrier with active := true, hooked := true, loopsSinceRelease := 0 } = changed := by
  simp only [inhook, throw_bind, refusal_eq_ok, pure_eq_ok, Bool.not_eq_true]

theorem releasehook_eq_ok :
    carrier.releasehook = .ok changed ↔
      carrier.hooked = true ∧
        { carrier with hooked := false, loopsSinceRelease := 0 } = changed := by
  simp only [releasehook, throw_bind, refusal_eq_ok, pure_eq_ok, Bool.not_eq_true',
    Bool.not_eq_false]

theorem checkLeaving_eq_ok :
    carrier.checkLeaving = .ok () ↔ carrier.active = true ∧ carrier.hooked = false := by
  cases active : carrier.active <;> cases hooked : carrier.hooked <;>
    simp [checkLeaving, active, hooked]

theorem out_eq_ok :
    carrier.out = .ok changed ↔
      (carrier.active = true ∧ carrier.hooked = false) ∧
        { carrier with active := false } = changed := by
  rw [out, then_eq_ok, checkLeaving_eq_ok, pure_eq_ok]

theorem outhook_eq_ok :
    carrier.outhook = .ok changed ↔
      (carrier.active = true ∧ carrier.hooked = false) ∧
        { carrier with
          active := false, yarn := carrier.yarn.cut, loopsSinceRelease := 0 } = changed := by
  rw [outhook, then_eq_ok, checkLeaving_eq_ok, pure_eq_ok]

end Carrier

namespace CarrierSystem

variable {system next : CarrierSystem}

theorem carrier_eq_ok {id : CarrierId} {carrier : Carrier} :
    system.carrier id = .ok carrier ↔ system.carrier? id = some carrier := by
  simp only [CarrierSystem.carrier]
  cases system.carrier? id <;> simp

theorem carrier?_put {id : CarrierId} {before : Carrier} (found : system.carrier? id = some before)
    (carrier : Carrier) (other : CarrierId) :
    (system.put id carrier).carrier? other =
      if id = other then some carrier else system.carrier? other := by
  simp only [carrier?] at found
  split at found
  · cases found
  · rename_i numbered
    simp only [carrier?, put, Array.getElem?_setIfInBounds]
    obtain ⟨inRange, _⟩ := Array.getElem?_eq_some_iff.mp found
    by_cases same : id = other
    · subst other
      simp [numbered, inRange]
    · rw [if_neg same]
      by_cases unnumbered : other.number = 0
      · simp [unnumbered]
      · have apart : id.number - 1 ≠ other.number - 1 := by
          intro equal
          refine same ?_
          cases id
          cases other
          simp_all
          omega
        simp [unnumbered, apart]

theorem update_eq_ok {id : CarrierId} {operation : Carrier → Except Fault Carrier} :
    system.update id operation = .ok next ↔
      ∃ carrier changed, system.carrier? id = some carrier ∧ operation carrier = .ok changed ∧
        system.put id changed = next := by
  simp only [update, bind_eq_ok, pure_eq_ok, carrier_eq_ok]
  constructor
  · rintro ⟨carrier, found, changed, ran, put⟩
    exact ⟨carrier, changed, found, ran, put⟩
  · rintro ⟨carrier, changed, found, ran, put⟩
    exact ⟨carrier, found, changed, ran, put⟩

structure Moved (system : CarrierSystem) (move : Move) (next : CarrierSystem) : Prop where
  carrier : ∀ id, next.carrier? id = (system.carrier? id).map (move.changed id)
  hooked : next.hooked = move.hookedAfter system.hooked
  count : next.count = system.count
  hookSize : next.hookSize = system.hookSize

theorem put_moved {move : Move} {id : CarrierId} {carrier : Carrier}
    (found : system.carrier? id = some carrier) (named : move.named = [id]) :
    system.Moved move { system.put id (move.changed id carrier) with
      hooked := move.hookedAfter system.hooked } where
  carrier other := by
    change (system.put id (move.changed id carrier)).carrier? other = _
    rw [carrier?_put found]
    split
    · rename_i here
      rw [← here, found, Option.map_some]
    · rename_i apart
      have notNamed : other ∉ move.named := by
        rw [named, List.mem_singleton]
        exact Ne.symm apart
      cases system.carrier? other with
      | none => rfl
      | some before => rw [Option.map_some, Move.changed_of_notNamed notNamed]
  hooked := rfl
  count := Array.size_setIfInBounds
  hookSize := rfl

theorem inhook_eq_ok {id : CarrierId} :
    system.inhook id = .ok next ↔
      ∃ carrier, system.carrier? id = some carrier ∧ carrier.active = false ∧
        carrier.hooked = false ∧ system.hooked = none ∧
        { system.put id { carrier with active := true, hooked := true, loopsSinceRelease := 0 } with
          hooked := some id } = next := by
  rw [inhook, bind_eq_ok]
  simp only [throw_bind, carrier_eq_ok, refusal_eq_ok, Bool.not_eq_true]
  cases system.hooked with
  | some hooked => simp
  | none =>
      simp only [bind_eq_ok, update_eq_ok, Carrier.inhook_eq_ok, pure_eq_ok, true_and]
      constructor
      · rintro ⟨_, _, _, _, ⟨carrier, _, found, ⟨inactive, unhooked, rfl⟩, rfl⟩, same⟩
        exact ⟨carrier, found, inactive, unhooked, same⟩
      · rintro ⟨carrier, found, inactive, unhooked, same⟩
        exact ⟨carrier, found, inactive, _,
          ⟨carrier, _, found, ⟨inactive, unhooked, rfl⟩, rfl⟩, same⟩

theorem releasehook_eq_ok {id : CarrierId} :
    system.releasehook id = .ok next ↔
      ∃ carrier, system.carrier? id = some carrier ∧ carrier.hooked = true ∧
        { system.put id { carrier with hooked := false, loopsSinceRelease := 0 } with
          hooked := if system.hooked = some id then none else system.hooked } = next := by
  rw [releasehook, bind_eq_ok]
  simp only [update_eq_ok, Carrier.releasehook_eq_ok, pure_eq_ok]
  have freed : ∀ carrier, (if (system.put id carrier).hooked = some id then
      { system.put id carrier with hooked := none } else system.put id carrier) =
        { system.put id carrier with
          hooked := if system.hooked = some id then none else system.hooked } := by
    intro carrier
    by_cases onHook : system.hooked = some id <;> simp [put, onHook]
  constructor
  · rintro ⟨_, ⟨carrier, _, found, ⟨hooked, rfl⟩, rfl⟩, same⟩
    exact ⟨carrier, found, hooked, (freed _).symm.trans same⟩
  · rintro ⟨carrier, found, hooked, same⟩
    exact ⟨_, ⟨carrier, _, found, ⟨hooked, rfl⟩, rfl⟩, (freed _).trans same⟩

theorem feed_eq_ok {id : CarrierId} {yarn : Yarn} :
    system.feed id = .ok (yarn, next) ↔
      ∃ carrier, system.carrier? id = some carrier ∧ carrier.yarn = yarn ∧
        system.put id carrier.countLoop = next := by
  simp only [feed, bind_eq_ok, carrier_eq_ok, pure_eq_ok, Prod.mk.injEq]

theorem makeLoop_eq_ok {carriers : CarrierSet} {result : List Yarn × CarrierSystem} :
    system.makeLoop carriers = .ok result ↔
      (∀ id ∈ carriers, ∃ carrier, system.carrier? id = some carrier ∧ carrier.active = true) ∧
        system.feedAll carriers = .ok result := by
  rw [makeLoop, then_eq_ok, checkInService_eq_ok]

theorem exists_makeLoop_iff {carriers : CarrierSet} :
    (∃ result, system.makeLoop carriers = .ok result) ↔
      ∀ id ∈ carriers, ∃ carrier, system.carrier? id = some carrier ∧ carrier.active = true := by
  constructor
  · rintro ⟨result, made⟩
    exact (makeLoop_eq_ok.mp made).1
  · intro inService
    obtain ⟨yarns, fed, made, _⟩ := makeLoop_succeeds (checkInService_eq_ok.mpr inService)
    exact ⟨(yarns, fed), made⟩

/-- Feeding carriers counts the loops of each, and takes the yarns that they feed at the start. -/
theorem feedAll_facts {carriers : CarrierSet} {yarns : List Yarn}
    (fed : system.feedAll carriers = .ok (yarns, next)) :
    system.Moved (.makeLoop carriers) next ∧
      ∀ yarn ∈ yarns, ∃ id ∈ carriers, ∃ carrier,
        system.carrier? id = some carrier ∧ carrier.yarn = yarn := by
  induction carriers generalizing system yarns with
  | nil =>
      simp only [feedAll, Except.ok.injEq, Prod.mk.injEq] at fed
      obtain ⟨rfl, rfl⟩ := fed
      refine ⟨⟨fun id => ?_, rfl, rfl, rfl⟩, by simp⟩
      cases system.carrier? id <;> rfl
  | cons id rest ih =>
      simp only [feedAll, bind_eq_ok] at fed
      obtain ⟨⟨yarn, middle⟩, first, ⟨others, last⟩, later, same⟩ := fed
      obtain ⟨carrier, found, rfl, rfl⟩ := feed_eq_ok.mp first
      simp only [pure_eq_ok, Prod.mk.injEq] at same
      obtain ⟨rfl, rfl⟩ := same
      obtain ⟨moved, sources⟩ := ih later
      have middleCarrier := carrier?_put found carrier.countLoop
      refine ⟨⟨fun other => ?_, moved.hooked, ?_, moved.hookSize⟩, ?_⟩
      · rw [moved.carrier, middleCarrier]
        by_cases here : id = other
        · subst other
          simp [found, Move.changed, Carrier.countLoops_countLoop]
        · simp [here, Move.changed]
      · rw [moved.count]
        exact Array.size_setIfInBounds
      · intro yarn member
        rcases List.mem_cons.mp member with rfl | later
        · exact ⟨id, by simp, carrier, found, rfl⟩
        · obtain ⟨other, inRest, source, foundSource, rfl⟩ := sources yarn later
          rw [middleCarrier] at foundSource
          split at foundSource
          · cases foundSource
            exact ⟨id, by simp, carrier, found, rfl⟩
          · exact ⟨other, by simp [inRest], source, foundSource, rfl⟩

theorem update_leaves {move : Move} {id : CarrierId} {operation : Carrier → Except Fault Carrier}
    (ran : system.update id operation = .ok next) (named : move.named = [id])
    (hooked : move.hookedAfter system.hooked = system.hooked)
    (here : ∀ carrier changed, operation carrier = .ok changed →
      move.changed id carrier = changed) : system.Moved move next := by
  obtain ⟨carrier, changed, found, changes, rfl⟩ := update_eq_ok.mp ran
  have moved := put_moved found named
  rw [here carrier changed changes, hooked] at moved
  exact moved

def Allows (system : CarrierSystem) : Move → Prop
  | .bringIn id => ∃ carrier, system.carrier? id = some carrier ∧ carrier.active = false
  | .inhook id => ∃ carrier, system.carrier? id = some carrier ∧ carrier.active = false ∧
      carrier.hooked = false ∧ system.hooked = none
  | .releasehook id => ∃ carrier, system.carrier? id = some carrier ∧ carrier.hooked = true
  | .out id => ∃ carrier, system.carrier? id = some carrier ∧ carrier.active = true ∧
      carrier.hooked = false
  | .outhook id => ∃ carrier, system.carrier? id = some carrier ∧ carrier.active = true ∧
      carrier.hooked = false
  | .makeLoop carriers => ∀ id ∈ carriers, ∃ carrier, system.carrier? id = some carrier ∧
      carrier.active = true

theorem exists_update_iff {id : CarrierId} {operation : Carrier → Except Fault Carrier}
    {takes : Carrier → Prop}
    (succeeds : ∀ carrier, (∃ changed, operation carrier = .ok changed) ↔ takes carrier) :
    (∃ next, system.update id operation = .ok next) ↔
      ∃ carrier, system.carrier? id = some carrier ∧ takes carrier := by
  simp only [update_eq_ok, ← succeeds]
  constructor
  · rintro ⟨_, carrier, changed, found, changes, _⟩
    exact ⟨carrier, found, changed, changes⟩
  · rintro ⟨carrier, found, changed, changes⟩
    exact ⟨_, carrier, changed, found, changes, rfl⟩

theorem allows_iff (move : Move) :
    (∃ next, move.act system = .ok next) ↔ system.Allows move := by
  cases move with
  | bringIn id => exact exists_update_iff fun carrier => by simp [Carrier.bringIn_eq_ok]
  | inhook id =>
      simp only [Move.act, inhook_eq_ok, Allows]
      constructor
      · rintro ⟨_, carrier, found, inactive, unhooked, free, _⟩
        exact ⟨carrier, found, inactive, unhooked, free⟩
      · rintro ⟨carrier, found, inactive, unhooked, free⟩
        exact ⟨_, carrier, found, inactive, unhooked, free, rfl⟩
  | releasehook id =>
      simp only [Move.act, releasehook_eq_ok, Allows]
      constructor
      · rintro ⟨_, carrier, found, hooked, _⟩
        exact ⟨carrier, found, hooked⟩
      · rintro ⟨carrier, found, hooked⟩
        exact ⟨_, carrier, found, hooked, rfl⟩
  | out id => exact exists_update_iff fun carrier => by simp [Carrier.out_eq_ok]
  | outhook id => exact exists_update_iff fun carrier => by simp [Carrier.outhook_eq_ok]
  | makeLoop carriers =>
      rw [Allows, ← exists_makeLoop_iff]
      simp only [Move.act, bind_eq_ok, pure_eq_ok]
      constructor
      · rintro ⟨_, result, made, _⟩
        exact ⟨result, made⟩
      · rintro ⟨result, made⟩
        exact ⟨result.2, result, made, rfl⟩

/-- A move that is not refused changes the carriers that it names as it says, and no others. -/
theorem act_moved {move : Move} (ran : move.act system = .ok next) : system.Moved move next := by
  cases move with
  | bringIn id =>
      refine update_leaves ran rfl rfl fun carrier changed changes => ?_
      rw [← (Carrier.bringIn_eq_ok.mp changes).2, Move.changed, if_pos rfl]
  | inhook id =>
      obtain ⟨carrier, found, _, _, _, rfl⟩ := inhook_eq_ok.mp ran
      have moved : system.Moved (.inhook id) _ := put_moved found rfl
      rw [Move.changed, if_pos rfl] at moved
      exact moved
  | releasehook id =>
      obtain ⟨carrier, found, _, rfl⟩ := releasehook_eq_ok.mp ran
      have moved : system.Moved (.releasehook id) _ := put_moved found rfl
      rw [Move.changed, if_pos rfl] at moved
      exact moved
  | out id =>
      refine update_leaves ran rfl rfl fun carrier changed changes => ?_
      rw [← (Carrier.out_eq_ok.mp changes).2, Move.changed, if_pos rfl]
  | outhook id =>
      refine update_leaves ran rfl rfl fun carrier changed changes => ?_
      rw [← (Carrier.outhook_eq_ok.mp changes).2, Move.changed, if_pos rfl]
  | makeLoop carriers =>
      simp only [Move.act, bind_eq_ok, pure_eq_ok] at ran
      obtain ⟨⟨yarns, fed⟩, made, rfl⟩ := ran
      exact (feedAll_facts (makeLoop_eq_ok.mp made).2).1

end CarrierSystem

end VBed
