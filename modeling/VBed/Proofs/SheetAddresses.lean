import VBed.Proofs.Safety

/-!
Sheet positions as addresses. A gauge divides every position into a sheet and a sheet position, and
the two together give the position back. So the sheets of a gauge that divides the bed tile it, and
a sheet position names a needle just when the exact position lies on the bed.
-/

namespace VBed

/-- The sheet and the sheet position are the remainder and the quotient of the position. -/
theorem div_mod_of_sheet {gauge sheet : Nat} (exist : sheet < gauge) (sheetPosition : Nat) :
    (gauge * sheetPosition + sheet) / gauge = sheetPosition ∧
      (gauge * sheetPosition + sheet) % gauge = sheet := by
  have positive : 0 < gauge := by omega
  constructor
  · rw [Nat.mul_add_div positive, Nat.div_eq_of_lt exist, Nat.add_zero]
  · rw [Nat.mul_add_mod, Nat.mod_eq_of_lt exist]

namespace SheetNeedle

variable {named : SheetNeedle} {gauge position : Nat}

theorem position?_eq_some :
    named.position? = some position ↔
      named.gauge * named.sheetPosition + named.sheet = position ∧ position < Text.wordCount := by
  rw [position?]
  constructor
  · intro found
    split at found
    · rename_i word
      cases found
      exact ⟨rfl, word⟩
    · cases found
  · rintro ⟨rfl, word⟩
    exact if_pos word

theorem needle_of_position? (found : named.position? = some position) :
    named.needle = ⟨named.side, position, named.slider⟩ := by
  rw [needle, SheetNeedle.position, found, Option.getD_some]

theorem of_eq_ok {side : Side} {sheetPosition sheet : Nat} {slider : Bool} :
    of side sheetPosition sheet gauge slider = .ok named ↔
      (1 ≤ gauge ∧ gauge ≤ maxGauge ∧ sheet < gauge) ∧
        ⟨side, sheetPosition, sheet, gauge, slider⟩ = named := by
  rw [of, then_eq_ok, Machine.checkSheet_eq_ok, pure_eq_ok]

theorem ofNeedle_eq_ok {needle : Needle} :
    ofNeedle needle gauge = .ok named ↔ (1 ≤ gauge ∧ gauge ≤ maxGauge) ∧
      ⟨needle.side, needle.position / gauge, needle.position % gauge, gauge, needle.slider⟩ =
        named := by
  rw [ofNeedle, then_eq_ok, Machine.checkGauge_eq_ok, pure_eq_ok]

/-- At a gauge every needle has an address, found without dividing by zero, that leads back to it;
and an address of a sheet leads to a needle that has just this address, unless the position is no
machine word. -/
structure Invertible (gauge : Nat) : Prop where
  located : ∀ needle : Needle, needle.position < Text.wordCount →
    ∃ named, Strict.ofNeedle needle gauge = some (.ok named) ∧
      ofNeedle needle gauge = .ok named ∧ named.sheet < gauge ∧
      named.position? = some needle.position ∧ named.needle = needle
  recovered : ∀ side sheetPosition sheet slider named,
    of side sheetPosition sheet gauge slider = .ok named → named.position? ≠ none →
      ofNeedle named.needle gauge = .ok named

theorem invertible_of_checked (checked : checkGauge gauge = .ok ()) : Invertible gauge := by
  have valid := Machine.checkGauge_eq_ok.mp checked
  constructor
  · intro needle word
    let named : SheetNeedle :=
      ⟨needle.side, needle.position / gauge, needle.position % gauge, gauge, needle.slider⟩
    have found : ofNeedle needle gauge = .ok named := ofNeedle_eq_ok.mpr ⟨valid, rfl⟩
    have position : named.position? = some needle.position :=
      position?_eq_some.mpr ⟨Nat.div_add_mod needle.position gauge, word⟩
    exact ⟨named, by rw [Strict.ofNeedle_eq, found], found, Nat.mod_lt _ valid.1, position,
      needle_of_position? position⟩
  · intro side sheetPosition sheet slider named made fits
    obtain ⟨⟨_, _, exist⟩, rfl⟩ := of_eq_ok.mp made
    obtain ⟨position, found⟩ := Option.ne_none_iff_exists'.mp fits
    obtain ⟨rfl, _⟩ := position?_eq_some.mp found
    obtain ⟨quotient, remainder⟩ := div_mod_of_sheet exist sheetPosition
    rw [needle_of_position? found]
    refine ofNeedle_eq_ok.mpr ⟨valid, ?_⟩
    simp only [quotient, remainder]

end SheetNeedle

namespace Machine

variable {machine : Machine}

theorem needleAt_eq_ok (shaped : machine.Shaped) {side : Side} {sheetPosition : Nat}
    {sheet gauge : Option Nat} {needle : Needle} :
    machine.needleAt side sheetPosition sheet gauge = .ok needle ↔
      (1 ≤ gauge.getD machine.gauge ∧ gauge.getD machine.gauge ≤ maxGauge ∧
        sheet.getD machine.sheet < gauge.getD machine.gauge) ∧
      gauge.getD machine.gauge * sheetPosition + sheet.getD machine.sheet < machine.needleCount ∧
      ⟨side, gauge.getD machine.gauge * sheetPosition + sheet.getD machine.sheet, false⟩ =
        needle := by
  rw [needleAt, bind_eq_ok]
  simp only [SheetNeedle.of_eq_ok, throw_bind, refusal_eq_ok, then_eq_ok,
    checkNeedle_eq_ok shaped, pure_eq_ok]
  generalize gauge.getD machine.gauge = atGauge
  generalize sheet.getD machine.sheet = ofSheet
  constructor
  · rintro ⟨named, ⟨valid, rfl⟩, fits, inRange, rfl⟩
    obtain ⟨position, found⟩ :=
      Option.ne_none_iff_exists'.mp (mt Option.isNone_iff_eq_none.mpr fits)
    obtain ⟨rfl, _⟩ := SheetNeedle.position?_eq_some.mp found
    rw [SheetNeedle.needle_of_position? found] at inRange ⊢
    exact ⟨valid, inRange, rfl⟩
  · rintro ⟨valid, inRange, rfl⟩
    let named : SheetNeedle := ⟨side, sheetPosition, ofSheet, atGauge, false⟩
    have found : named.position? = some (atGauge * sheetPosition + ofSheet) :=
      SheetNeedle.position?_eq_some.mpr ⟨rfl, Nat.lt_trans inRange shaped.word⟩
    refine ⟨named, ⟨valid, rfl⟩, by simp [found], ?_, SheetNeedle.needle_of_position? found⟩
    rw [SheetNeedle.needle_of_position? found]
    exact inRange

structure Tiled (machine : Machine) (gauge : Nat) : Prop where
  onto : ∀ side, ∀ sheet < gauge, ∀ sheetPosition < machine.needleCount / gauge,
    ∃ position < machine.needleCount,
      machine.needleAt side sheetPosition (some sheet) (some gauge) =
        .ok ⟨side, position, false⟩
  once : ∀ side, ∀ position < machine.needleCount, ∃! place : Nat × Nat,
    place.1 < gauge ∧ place.2 < machine.needleCount / gauge ∧
      machine.needleAt side place.2 (some place.1) (some gauge) = .ok ⟨side, position, false⟩

/-- Sheet positions name the needles of the bed. The sheet and the gauge in use stand for those that
are left out. -/
structure NamesNeedles (machine : Machine) : Prop where
  names : ∀ side sheetPosition sheet gauge needle,
    machine.needleAt side sheetPosition sheet gauge = .ok needle ↔
      checkSheet (sheet.getD machine.sheet) (gauge.getD machine.gauge) = .ok () ∧
      gauge.getD machine.gauge * sheetPosition + sheet.getD machine.sheet < machine.needleCount ∧
      needle =
        ⟨side, gauge.getD machine.gauge * sheetPosition + sheet.getD machine.sheet, false⟩
  tiles : ∀ gauge, checkGauge gauge = .ok () → gauge ∣ machine.needleCount → machine.Tiled gauge

theorem tiled_of_divides (shaped : machine.Shaped) {gauge : Nat}
    (checked : checkGauge gauge = .ok ()) (divides : gauge ∣ machine.needleCount) :
    machine.Tiled gauge := by
  obtain ⟨positive, bounded⟩ := checkGauge_eq_ok.mp checked
  constructor
  · intro side sheet exist sheetPosition inSheet
    have inRange := Strict.sheetPosition_lt exist divides inSheet
    rw [Nat.add_comm] at inRange
    exact ⟨_, inRange, (needleAt_eq_ok shaped).mpr ⟨⟨positive, bounded, exist⟩, inRange, rfl⟩⟩
  · intro side position inRange
    have whole := Nat.div_add_mod position gauge
    have exist : position % gauge < gauge := Nat.mod_lt _ positive
    have inSheet : position / gauge < machine.needleCount / gauge :=
      Nat.div_lt_div_of_lt_of_dvd divides inRange
    refine ⟨(position % gauge, position / gauge), ⟨exist, inSheet, ?_⟩, ?_⟩
    · refine (needleAt_eq_ok shaped).mpr ⟨⟨positive, bounded, exist⟩, ?_, ?_⟩
      · rwa [Option.getD_some, Option.getD_some, whole]
      · rw [Option.getD_some, Option.getD_some, whole]
    · rintro ⟨sheet, sheetPosition⟩ ⟨isSheet, _, names⟩
      obtain ⟨_, _, same⟩ := (needleAt_eq_ok shaped).mp names
      obtain rfl : gauge * sheetPosition + sheet = position := congrArg Needle.position same
      obtain ⟨quotient, remainder⟩ := div_mod_of_sheet isSheet sheetPosition
      rw [quotient, remainder]

theorem namesNeedles_of_reachable (reachable : machine.Reachable) :
    (∀ gauge, checkGauge gauge = .ok () → SheetNeedle.Invertible gauge) ∧
      machine.NamesNeedles := by
  have shaped := reachable.sound.shaped
  refine ⟨fun gauge => SheetNeedle.invertible_of_checked, ?_, fun gauge => tiled_of_divides shaped⟩
  intro side sheetPosition sheet gauge needle
  rw [needleAt_eq_ok shaped, checkSheet_eq_ok, eq_comm (a := needle)]

/-- The product that names the last needle of a gauge group wraps round to a needle of the bed, and
is refused. -/
theorem namesNeedles_wrapped :
    let machine := (initial twoNeedles).afterAll [.apply (.gauge 2), .apply (.sheet 1)]
    machine.needleAt .back 0 none none = .ok (.back 1) ∧
      (2 * 2 ^ 63 + 1) % 2 ^ 64 = 1 ∧
      (machine.needleAt .back (2 ^ 63) none none).toOption = none ∧
      (∀ gauge, checkGauge gauge = .ok () → SheetNeedle.Invertible gauge) ∧
      machine.NamesNeedles :=
  ⟨by decide +kernel, by decide +kernel, by decide +kernel,
    namesNeedles_of_reachable (reachable_twoNeedles _)⟩

end Machine

end VBed
