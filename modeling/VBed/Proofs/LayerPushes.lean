import Mathlib.Algebra.Group.Int.Defs
import VBed.Proofs.Safety

/-!
Pushing a position through the layers. A push adds a signed count of layers as integers do and takes
the remainder by the gauge, and moves nothing but the one position. So pushes add up whatever their
order, and a push forward takes a push backward back.
-/

namespace VBed.Machine

variable {machine next : Machine} {position layer : Nat}

/-- The layer that lies a signed count behind another one, where the first layer follows the
last. -/
def turned (gauge layer : Nat) (count : Int) : Nat :=
  ((layer + count) % gauge).toNat

def relayered (machine : Machine) (position layer : Nat) : Machine :=
  { machine with layers := machine.layers.setIfInBounds position layer }

theorem turned_lt {gauge : Nat} (positive : 0 < gauge) (layer : Nat) (count : Int) :
    turned gauge layer count < gauge := by
  have below := Int.emod_lt_of_pos (layer + count) (b := gauge) (by omega)
  have notNegative := Int.emod_nonneg (layer + count) (b := gauge) (by omega)
  rw [turned]
  omega

theorem cast_turned {gauge : Nat} (positive : 0 < gauge) (layer : Nat) (count : Int) :
    (turned gauge layer count : Int) = (layer + count) % gauge := by
  have notNegative := Int.emod_nonneg (layer + count) (b := gauge) (by omega)
  rw [turned]
  omega

theorem turned_zero {gauge : Nat} (within : layer < gauge) : turned gauge layer 0 = layer := by
  have positive : 0 < gauge := by omega
  have same := cast_turned positive layer 0
  rw [Int.add_zero, Int.emod_eq_of_lt (by omega) (by omega)] at same
  omega

theorem turned_turned {gauge : Nat} (positive : 0 < gauge) (layer : Nat) (first second : Int) :
    turned gauge (turned gauge layer first) second = turned gauge layer (first + second) := by
  have sum := cast_turned positive (turned gauge layer first) second
  rw [cast_turned positive layer first, Int.emod_add_emod, Int.add_assoc,
    ← cast_turned positive layer (first + second)] at sum
  omega

/-- The remainder of a count moves a position as the count itself does. -/
theorem turned_remainder {gauge : Nat} (positive : 0 < gauge) (layer : Nat) (count : Int) :
    (layer + (count % gauge).toNat) % gauge = turned gauge layer count := by
  have notNegative := Int.emod_nonneg count (b := gauge) (by omega)
  rw [← Int.natCast_inj, cast_turned positive, Int.natCast_emod, Int.natCast_add,
    Int.toNat_of_nonneg notNegative, Int.add_emod_emod]

/-- What is left of the gauge by the remainder of a count moves a position the other way. -/
theorem turned_complement {gauge : Nat} (positive : 0 < gauge) (layer : Nat) (count : Int) :
    (layer + (gauge - (count % gauge).toNat) % gauge) % gauge = turned gauge layer (-count) := by
  have notNegative := Int.emod_nonneg count (b := gauge) (by omega)
  have below := Int.emod_lt_of_pos count (b := gauge) (by omega)
  have whole := Int.mul_ediv_add_emod count gauge
  -- The two counts differ by a multiple of the gauge.
  have apart : (layer : Int) + -count = layer + (gauge - count % gauge) +
      gauge * (-(count / gauge) - 1) := by
    rw [Int.mul_sub, Int.mul_neg, Int.mul_one]
    omega
  rw [← Int.natCast_inj, cast_turned positive, apart, Int.add_mul_emod_self_left, Nat.add_mod_mod,
    Int.natCast_emod, Int.natCast_add, Int.natCast_sub (by omega), Int.toNat_of_nonneg notNegative]

theorem layerAt_eq_ok :
    machine.layerAt position = .ok layer ↔
      position < machine.needleCount ∧ machine.layer position = layer := by
  rw [layerAt, then_eq_ok, checkPosition_eq_ok, pure_eq_ok]

theorem gauge_relayered : (machine.relayered position layer).gauge = machine.gauge := rfl

theorem relayered_relayered (first second : Nat) :
    (machine.relayered position first).relayered position second =
      machine.relayered position second := by
  simp only [relayered, Array.setIfInBounds_setIfInBounds]

theorem layerAt_relayered (shaped : machine.Shaped) (inRange : position < machine.needleCount)
    (layer : Nat) : (machine.relayered position layer).layerAt position = .ok layer := by
  refine layerAt_eq_ok.mpr ⟨inRange, ?_⟩
  rw [← shaped.layers] at inRange
  simp [Machine.layer, relayered, inRange]

theorem layerAt_relayered_other {other : Nat} (elsewhere : other ≠ position) :
    (machine.relayered position layer).layerAt other = machine.layerAt other := by
  have same : (machine.relayered position layer).layer other = machine.layer other := by
    simp [Machine.layer, relayered, elsewhere.symm]
  rw [layerAt, layerAt, same]
  rfl

theorem relayered_self (shaped : machine.Shaped) (found : machine.layerAt position = .ok layer) :
    machine.relayered position layer = machine := by
  obtain ⟨inRange, rfl⟩ := layerAt_eq_ok.mp found
  rw [← shaped.layers] at inRange
  have same : machine.layers.setIfInBounds position (machine.layer position) = machine.layers := by
    simp [Machine.layer, Array.setIfInBounds, inRange]
  rw [relayered, same]

theorem setLayer_done (inRange : position < machine.needleCount) (within : layer < machine.gauge) :
    setLayer position layer machine = .ok () (machine.relayered position layer) := by
  have checked : machine.checkLayer position layer = .ok () := by
    rw [checkLayer, checkPosition_eq_ok.mpr inRange]
    exact if_neg (Nat.not_le_of_lt within)
  exact run_bind_ok (ask_ok checked)

section Pushing

variable (configured : machine.Configured)
include configured

theorem Configured.relayered (within : layer < machine.gauge) (position : Nat) :
    (machine.relayered position layer).Configured :=
  configured.withLayer within

theorem shiftLayer_done (found : machine.layerAt position = .ok layer) (shift : Nat) :
    shiftLayer position shift machine =
      .ok () (machine.relayered position ((layer + shift) % machine.gauge)) := by
  have positive : 0 < machine.gauge := configured.positive
  have within : layer < machine.gauge := configured.layerAt_lt found
  rw [shiftLayer, run_bind_ok (ask_ok found)]
  by_cases still : shift = 0
  · rw [still, Nat.add_zero, Nat.mod_eq_of_lt within,
      relayered_self configured.toShaped found]
    rfl
  · rw [if_pos still, run_get_bind]
    exact setLayer_done (layerAt_eq_ok.mp found).1 (Nat.mod_lt _ positive)

theorem pushLayerBackward_done (found : machine.layerAt position = .ok layer) (count : Int) :
    pushLayerBackward position count machine =
      .ok () (machine.relayered position (turned machine.gauge layer count)) := by
  rw [pushLayerBackward, run_get_bind, shiftLayer_done configured found,
    turned_remainder configured.positive]

theorem pushLayerForward_done (found : machine.layerAt position = .ok layer) (count : Int) :
    pushLayerForward position count machine =
      .ok () (machine.relayered position (turned machine.gauge layer (-count))) := by
  rw [pushLayerForward, run_get_bind, shiftLayer_done configured found,
    turned_complement configured.positive]

end Pushing

structure Pushed (machine next : Machine) (position : Nat) (count : Int) : Prop where
  layer : ∃ before after, machine.layerAt position = .ok before ∧
    next.layerAt position = .ok after ∧ after < machine.gauge ∧
      (after : Int) = (before + count) % machine.gauge
  others : ∀ other ≠ position, next.layerAt other = machine.layerAt other
  rest : next = { machine with layers := next.layers }

theorem pushed_relayered (configured : machine.Configured)
    (found : machine.layerAt position = .ok layer) (count : Int) :
    machine.Pushed (machine.relayered position (turned machine.gauge layer count)) position
      count where
  layer := ⟨layer, turned machine.gauge layer count, found,
    layerAt_relayered configured.toShaped (layerAt_eq_ok.mp found).1 _,
    turned_lt configured.positive layer count, cast_turned configured.positive layer count⟩
  others _ elsewhere := layerAt_relayered_other elsewhere
  rest := rfl

/-- Pushes in one direction move a position by their counts, and two of them, whichever is made
first, move it by the sum of both. The direction is the sign of a backward count. -/
structure PushesBy (machine : Machine) (position : Nat) (push : Int → Action Unit)
    (direction : Int) : Prop where
  moves : ∀ count, ∃ next, push count machine = .ok () next ∧
    machine.Pushed next position (direction * count)
  sums : ∀ first second, ∃ next, machine.Pushed next position (direction * (first + second)) ∧
    (push first >>= fun _ => push second) machine = .ok () next ∧
    (push second >>= fun _ => push first) machine = .ok () next ∧
    push (first + second) machine = .ok () next

theorem pushesBy_of_done {push : Int → Action Unit} {direction : Int}
    (configured : machine.Configured) (inRange : position < machine.needleCount)
    (done : ∀ current : Machine, current.Configured → ∀ layer,
      current.layerAt position = .ok layer → ∀ count, push count current =
        .ok () (current.relayered position (turned current.gauge layer (direction * count)))) :
    machine.PushesBy position push direction := by
  have positive : 0 < machine.gauge := configured.positive
  have found : machine.layerAt position = .ok (machine.layer position) :=
    layerAt_eq_ok.mpr ⟨inRange, rfl⟩
  have twice : ∀ first second, (push first >>= fun _ => push second) machine =
      .ok () (machine.relayered position
        (turned machine.gauge (machine.layer position) (direction * (first + second)))) := by
    intro first second
    let middle := turned machine.gauge (machine.layer position) (direction * first)
    have within : middle < machine.gauge := turned_lt positive _ _
    have again : (machine.relayered position middle).layerAt position = .ok middle :=
      layerAt_relayered configured.toShaped inRange middle
    rw [run_bind_ok (done machine configured _ found first),
      done _ (configured.relayered within position) _ again second, relayered_relayered,
      gauge_relayered, turned_turned positive, ← Int.mul_add]
  constructor
  · intro count
    exact ⟨_, done machine configured _ found count, pushed_relayered configured found _⟩
  · intro first second
    refine ⟨_, pushed_relayered configured found _, twice first second, ?_,
      done machine configured _ found _⟩
    rw [twice second first, Int.add_comm second first]

/-- Pushes of a position are exact in both directions, take each other back, and run the same with
every sum, difference and remainder checked. -/
structure PushesLayers (machine : Machine) (position : Nat) : Prop where
  backward : machine.PushesBy position (pushLayerBackward position) 1
  forward : machine.PushesBy position (pushLayerForward position) (-1)
  undone : ∀ count,
    (pushLayerBackward position count >>= fun _ => pushLayerForward position count) machine =
        .ok () machine ∧
      (pushLayerForward position count >>= fun _ => pushLayerBackward position count) machine =
        .ok () machine
  checked : ∀ count,
    Strict.pushLayerBackward position count machine =
        some (pushLayerBackward position count machine) ∧
      Strict.pushLayerForward position count machine =
        some (pushLayerForward position count machine)

theorem pushesLayers_of_reachable (reachable : machine.Reachable)
    (inRange : position < machine.needleCount) : machine.PushesLayers position := by
  have configured := reachable.configured
  have positive : 0 < machine.gauge := configured.positive
  have found : machine.layerAt position = .ok (machine.layer position) :=
    layerAt_eq_ok.mpr ⟨inRange, rfl⟩
  have current : machine.layer position < machine.gauge := configured.layerAt_lt found
  have backToLayer : ∀ count, turned machine.gauge
      (turned machine.gauge (machine.layer position) count) (-count) = machine.layer position := by
    intro count
    rw [turned_turned positive, Int.add_right_neg, turned_zero current]
  constructor
  · refine pushesBy_of_done configured inRange fun current configured layer found count => ?_
    rw [Int.one_mul]
    exact pushLayerBackward_done configured found count
  · refine pushesBy_of_done configured inRange fun current configured layer found count => ?_
    rw [Int.neg_one_mul]
    exact pushLayerForward_done configured found count
  · intro count
    have within := turned_lt positive (machine.layer position)
    have after := layerAt_relayered configured.toShaped inRange
    constructor
    · rw [run_bind_ok (pushLayerBackward_done configured found count),
        pushLayerForward_done (configured.relayered (within count) position) (after _),
        relayered_relayered, gauge_relayered, backToLayer, relayered_self configured.toShaped found]
    · have returns := backToLayer (-count)
      rw [Int.neg_neg] at returns
      rw [run_bind_ok (pushLayerForward_done configured found count),
        pushLayerBackward_done (configured.relayered (within (-count)) position) (after _),
        relayered_relayered, gauge_relayered, returns, relayered_self configured.toShaped found]
  · exact fun count => ⟨(Strict.agrees_pushLayerBackward configured position count).runs,
      (Strict.agrees_pushLayerForward configured position count).runs⟩

/-- The least signed word, whose opposite is no signed word, moves one of two layers not at all, and
the greatest moves it by one. -/
theorem pushesLayers_extreme :
    let layered := (initial twoNeedles).afterAll [.apply (.gauge 2)]
    (layered.afterAll [.apply (.pushLayerForward 1 (-2 ^ 63))]).layers = #[0, 1] ∧
      (layered.afterAll [.apply (.pushLayerForward 1 (2 ^ 63 - 1))]).layers = #[0, 0] ∧
      layered.PushesLayers 1 :=
  ⟨by decide +kernel, by decide +kernel,
    pushesLayers_of_reachable (reachable_twoNeedles _) (by decide +kernel)⟩

end VBed.Machine
