import VBed.Proofs.LoopIdentity

/-!
The configuration of a machine: its gauge divides the bed, the sheet that is worked and the layers
exist at the gauge, everything that is kept by position fits the bed, and the beds are racked no
further than they can be.
-/

namespace VBed

def Binary64.Within (number bound : Binary64) : Prop :=
  number.isFinite = true ∧
    ∃ distance limit, number.abs.place? = some distance ∧ bound.place? = some limit ∧
      distance ≤ limit

structure Bed.SameShape (bed next : Bed) : Prop where
  side : next.side = bed.side
  slots : ∀ slider, (next.slots slider).size = (bed.slots slider).size

theorem Bed.SameShape.refl (bed : Bed) : bed.SameShape bed :=
  ⟨rfl, fun _ => rfl⟩

theorem Bed.SameShape.trans {bed next last : Bed} (first : bed.SameShape next)
    (second : next.SameShape last) : bed.SameShape last :=
  ⟨second.side.trans first.side, fun slider => (second.slots slider).trans (first.slots slider)⟩

theorem Bed.sameShape_put (bed : Bed) (needle : Needle) (loops : List LoopId) :
    bed.SameShape (bed.put needle loops) :=
  ⟨side_put bed needle loops, size_slots_put bed needle loops⟩

namespace Machine

structure Configured (machine : Machine) : Prop extends Shaped machine where
  positive : 1 ≤ machine.gauge
  bounded : machine.gauge ≤ maxGauge
  divides : machine.gauge ∣ machine.needleCount
  sheet : machine.sheet < machine.gauge
  layered : ∀ layer ∈ machine.layers, layer < machine.gauge
  racked : machine.racking.Within machine.spec.maxRack

variable {machine next : Machine}

theorem within_of_checked (valid : machine.spec.check = .ok ()) {racking : Binary64}
    (checked : machine.checkRacking racking = .ok ()) : racking.Within machine.spec.maxRack := by
  simp only [Spec.check, throw_bind, refusal_eq_ok, Bool.or_eq_true, not_or, Bool.not_eq_true,
    Bool.not_eq_false'] at valid
  simp only [checkRacking, refusal_eq_ok, Bool.or_eq_true, not_or, Bool.not_eq_true,
    Bool.not_eq_false'] at checked
  obtain ⟨⟨isFinite, notLess⟩, _⟩ := checked
  refine ⟨isFinite, ?_⟩
  obtain ⟨negative, magnitude⟩ | _ | _ := racking
  · generalize machine.spec.maxRack = bound at notLess valid
    obtain ⟨_, limit⟩ | _ | _ := bound
    · refine ⟨_, _, rfl, rfl, ?_⟩
      simpa [Binary64.less, Binary64.place?, Binary64.abs] using notLess
    · simp [Binary64.isFinite] at valid
    · simp [Binary64.isFinite] at valid
  · cases isFinite
  · cases isFinite

theorem checkGauge_eq_ok {gauge : Nat} :
    checkGauge gauge = .ok () ↔ 1 ≤ gauge ∧ gauge ≤ maxGauge := by
  rw [checkGauge]
  split
  · simp only [reduceCtorEq, false_iff]
    omega
  · simp only [true_iff]
    omega

theorem checkSheet_eq_ok {sheet gauge : Nat} :
    checkSheet sheet gauge = .ok () ↔ 1 ≤ gauge ∧ gauge ≤ maxGauge ∧ sheet < gauge := by
  simp only [checkSheet, then_eq_ok, checkGauge_eq_ok, refusal_eq_ok, pure_eq_ok, and_true,
    and_assoc]
  omega

theorem checkEvenGauge_eq_ok {gauge : Nat} :
    machine.checkEvenGauge gauge = .ok () ↔
      1 ≤ gauge ∧ gauge ≤ maxGauge ∧ gauge ∣ machine.needleCount := by
  simp only [checkEvenGauge, then_eq_ok, checkGauge_eq_ok, refusal_eq_ok, pure_eq_ok, and_true,
    and_assoc, ne_eq, Decidable.not_not, Nat.dvd_iff_mod_eq_zero]

theorem checkPosition_eq_ok {position : Nat} :
    machine.checkPosition position = .ok () ↔ position < machine.needleCount := by
  rw [checkPosition]
  split
  · simp only [reduceCtorEq, false_iff]
    omega
  · simp only [true_iff]
    omega

theorem configured_initial {spec : Spec} (valid : spec.check = .ok ())
    (word : spec.needleCount < Text.wordCount) : (initial spec).Configured where
  toShaped := shaped_initial valid word
  positive := Nat.le_refl 1
  bounded := (by decide : 1 ≤ maxGauge)
  divides := Nat.one_dvd _
  sheet := Nat.zero_lt_one
  layered layer member := by
    rw [(Array.mem_replicate.mp member).2]
    exact Nat.zero_lt_one
  racked := within_of_checked valid (checkRacking_zero valid)

namespace Configured

variable (configured : machine.Configured)
include configured

/-- Layers and shifts below the gauge add up to a word. -/
theorem gauge_add_gauge : machine.gauge + machine.gauge < Text.wordCount :=
  Nat.lt_of_le_of_lt (Nat.add_le_add configured.bounded configured.bounded)
    (by decide : maxGauge + maxGauge < Text.wordCount)

theorem layer_lt {position layer : Nat} (found : machine.layers[position]? = some layer) :
    layer < machine.gauge :=
  configured.layered layer (Array.mem_of_getElem? found)

theorem layers_inRange {position : Nat} (inRange : position < machine.needleCount) :
    machine.layers[position]? = some (machine.layer position) := by
  rw [← configured.layers] at inRange
  simp [layer, inRange]

/-- Whole gauge groups lie on the bed. -/
theorem group_inRange {position sheet : Nat} (inRange : position < machine.needleCount)
    (exists_ : sheet < machine.gauge) :
    machine.groupStart position + sheet < machine.needleCount := by
  obtain ⟨groups, whole⟩ := configured.divides
  rw [whole] at inRange ⊢
  -- The group of the position ends before the bed does, as the bed ends with a group.
  have group : position / machine.gauge < groups := Nat.div_lt_of_lt_mul inRange
  have last : (position / machine.gauge + 1) * machine.gauge ≤ groups * machine.gauge :=
    Nat.mul_le_mul_right _ group
  rw [groupStart, Nat.mul_comm machine.gauge groups]
  rw [Nat.succ_mul] at last
  omega

theorem record_inRange {position : Nat} (inRange : position < machine.needleCount) :
    machine.record[position]? = some (machine.onRecord position) := by
  rw [← configured.record] at inRange
  simp [onRecord, inRange]

theorem layerAt_lt {position layer : Nat} (found : machine.layerAt position = .ok layer) :
    layer < machine.gauge := by
  simp only [layerAt, then_eq_ok, checkPosition_eq_ok, pure_eq_ok] at found
  obtain ⟨inRange, rfl⟩ := found
  exact configured.layer_lt (configured.layers_inRange inRange)

theorem signedWord_gauge : Text.signedWord machine.gauge = machine.gauge := by
  have word := configured.gauge_add_gauge
  rw [Text.signedWord]
  generalize Text.wordCount = count at word ⊢
  exact Int.bmod_eq_of_le (by omega) (by omega)

theorem remainder_lt (layers : Int) : (layers % machine.gauge).toNat < machine.gauge := by
  have positive := configured.positive
  have small := Int.emod_lt_of_pos layers (b := machine.gauge) (by omega)
  have notNegative := Int.emod_nonneg layers (b := machine.gauge) (by omega)
  omega

theorem withSheet {sheet : Nat} (exists_ : sheet < machine.gauge) :
    ({ machine with sheet := sheet } : Machine).Configured :=
  { configured with
    toShaped := @Undisturbed.shaped machine _ ⟨rfl, rfl, rfl, rfl, rfl, rfl⟩
      configured.toShaped
    sheet := exists_ }

/-- A new gauge puts every position into a layer that it has. -/
theorem regauged {gauge : Nat} (checked : machine.checkEvenGauge gauge = .ok ()) :
    (machine.regauged gauge).Configured := by
  obtain ⟨positive, bounded, divides⟩ := checkEvenGauge_eq_ok.mp checked
  have shaped := (machine.regauged_undisturbed gauge).shaped configured.toShaped
  rw [Machine.regauged] at shaped ⊢
  split
  · exact configured
  · rename_i differs
    rw [if_neg differs] at shaped
    refine ⟨shaped, positive, bounded, divides, ?_, ?_, configured.racked⟩
    · change (if machine.sheet < gauge then machine.sheet else 0) < gauge
      split <;> omega
    · intro layer member
      obtain ⟨position, _, rfl⟩ := Array.mem_mapIdx.mp member
      exact Nat.mod_lt position positive

theorem withLayer {position layer : Nat} (exists_ : layer < machine.gauge) :
    ({ machine with layers := machine.layers.setIfInBounds position layer } : Machine).Configured :=
  { configured with
    toShaped := @Undisturbed.shaped machine _
      ⟨rfl, rfl, rfl, rfl, rfl, Array.size_setIfInBounds⟩ configured.toShaped
    layered := by
      intro other member
      rcases Array.mem_or_eq_of_mem_setIfInBounds member with kept | rfl
      · exact configured.layered other kept
      · exact exists_ }

end Configured

structure ConfiguredAt (gauge : Nat) (machine : Machine) : Prop extends Configured machine where
  gauge : machine.gauge = gauge

theorem Configured.current (configured : machine.Configured) :
    ConfiguredAt machine.gauge machine :=
  ⟨configured, rfl⟩

namespace ConfiguredAt

variable {gauge : Nat} (configured : ConfiguredAt gauge machine)
include configured

/-- What is not configured can be anything. -/
theorem of_undisturbed (same : machine.Undisturbed next) (gauges : next.gauge = machine.gauge)
    (sheets : next.sheet = machine.sheet) (layers : next.layers = machine.layers)
    (racked : next.racking.Within next.spec.maxRack) : ConfiguredAt gauge next where
  toShaped := same.shaped configured.toShaped
  positive := by rw [gauges]; exact configured.positive
  bounded := by rw [gauges]; exact configured.bounded
  divides := by rw [gauges, same.needleCount]; exact configured.divides
  sheet := by rw [gauges, sheets]; exact configured.sheet
  layered := by rw [gauges, layers]; exact configured.layered
  racked := racked
  gauge := gauges.trans configured.gauge

theorem withRacking {racking : Binary64} (checked : machine.checkRacking racking = .ok ()) :
    ConfiguredAt gauge { machine with racking := racking } :=
  configured.of_undisturbed ⟨rfl, rfl, rfl, rfl, rfl, rfl⟩ rfl rfl rfl
    (within_of_checked configured.valid checked)

theorem withCarriers (carriers : CarrierSystem) :
    ConfiguredAt gauge { machine with carriers := carriers } :=
  configured.of_undisturbed ⟨rfl, rfl, rfl, rfl, rfl, rfl⟩ rfl rfl rfl configured.racked

theorem withPresence (position : Nat) (presence : Presence) :
    ConfiguredAt gauge
      { machine with record := machine.record.setIfInBounds position presence } := by
  have shaped : Shaped { machine with record := machine.record.setIfInBounds position presence } :=
    ⟨configured.valid, configured.word, configured.side, configured.slots,
      Array.size_setIfInBounds.trans configured.record, configured.layers⟩
  exact ⟨⟨shaped, configured.positive, configured.bounded, configured.divides, configured.sheet,
    configured.layered, configured.racked⟩, configured.gauge⟩

end ConfiguredAt

/-- A bed that fits the place of another one fits the machine. -/
theorem ConfiguredAt.equipped {gauge : Nat} (configured : ConfiguredAt gauge machine) {side : Side}
    {bed : Bed} (fits : (machine.bed side).SameShape bed) (graph : StitchGraph) :
    ConfiguredAt gauge (machine.equipped side bed graph) := by
  have beds : ∀ other,
      (machine.bed other).SameShape ((machine.equipped side bed graph).bed other) := by
    intro other
    cases side <;> cases other <;> first | exact fits | exact ⟨rfl, fun _ => rfl⟩
  have shaped : (machine.equipped side bed graph).Shaped := by
    refine ⟨?_, ?_, ?_, ?_, ?_, ?_⟩
    · cases side <;> exact configured.valid
    · cases side <;> exact configured.word
    · exact fun other => (beds other).side.trans (configured.side other)
    · intro other slider
      rw [(beds other).slots slider, configured.slots]
      cases side <;> rfl
    · cases side <;> exact configured.record
    · cases side <;> exact configured.layers
  cases side <;>
    exact ⟨⟨shaped, configured.positive, configured.bounded, configured.divides, configured.sheet,
      configured.layered, configured.racked⟩, configured.gauge⟩

end Machine

end VBed
