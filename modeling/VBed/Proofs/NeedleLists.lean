import VBed.Proofs.Safety

/-!
Needle sets by their names, and the needles of a set, listed. A list has each needle of the set in
the scope once, those in front before those at the back and each bed by position. The lists of the
sheets of a gauge share no needle and have together the needles of the list of all positions.
-/

namespace VBed

def Scope.Covers (machine : Machine) (position : Nat) : Scope → Prop
  | .all => position < machine.needleCount
  | .current => position < machine.needleCount ∧ position % machine.gauge = machine.sheet
  | .sheet number gauge => position < machine.needleCount ∧ position % gauge = number

structure NeedleSet.Includes (set : NeedleSet) (machine : Machine) (needle : Needle) : Prop where
  side : set.side = none ∨ set.side = some needle.side
  kind : needle.slider = set.slider
  held : set.loopsOnly = true → machine.hasLoops needle = .ok true

def Needle.Before (first second : Needle) : Prop :=
  first.side = .front ∧ second.side = .back ∨
    first.side = second.side ∧ first.position < second.position

theorem Needle.Before.ne {first second : Needle} (before : first.Before second) :
    first ≠ second := by
  rintro rfl
  rcases before with ⟨front, back⟩ | ⟨_, lower⟩
  · rw [front] at back
    cases back
  · omega

namespace NeedleSet

/-- The twelve sets by name: the one bed that a set is on, its kind, and whether only needles with
loops belong to it. -/
def named : List (String × NeedleSet) :=
  [("Needles", ⟨none, false, false⟩),
    ("Front_Needles", ⟨some .front, false, false⟩),
    ("Back_Needles", ⟨some .back, false, false⟩),
    ("Sliders", ⟨none, true, false⟩),
    ("Front_Sliders", ⟨some .front, true, false⟩),
    ("Back_Sliders", ⟨some .back, true, false⟩),
    ("Loops", ⟨none, false, true⟩),
    ("Front_Loops", ⟨some .front, false, true⟩),
    ("Back_Loops", ⟨some .back, false, true⟩),
    ("Slider_Loops", ⟨none, true, true⟩),
    ("Front_Slider_Loops", ⟨some .front, true, true⟩),
    ("Back_Slider_Loops", ⟨some .back, true, true⟩)]

theorem all_named : all.map (fun set => (set.name, set)) = named := by decide

theorem mem_all (set : NeedleSet) : set ∈ all := by
  obtain ⟨side, slider, loopsOnly⟩ := set
  cases slider <;> cases loopsOnly <;> rcases side with _ | _ | _ <;> decide

theorem mem_named {text : String} {set : NeedleSet} : (text, set) ∈ named ↔ set.name = text := by
  rw [← all_named, List.mem_map]
  constructor
  · rintro ⟨other, _, same⟩
    cases same
    rfl
  · rintro rfl
    exact ⟨set, mem_all set, rfl⟩

theorem name_inj {first second : NeedleSet} : first.name = second.name ↔ first = second := by
  have apart : ∀ first ∈ all, ∀ second ∈ all, first.name = second.name → first = second := by decide
  exact ⟨apart first (mem_all first) second (mem_all second), congrArg name⟩

/-- Each name is read as its set, and no other text is read. -/
theorem ofName_eq_ok {text : String} {set : NeedleSet} :
    ofName text = .ok set ↔ (text, set) ∈ named := by
  rw [mem_named, ofName]
  cases found : all.find? (·.name == text) with
  | none =>
      have unnamed := List.find?_eq_none.mp found set (mem_all set)
      simpa using unnamed
  | some other =>
      have named : other.name = text := by simpa using List.find?_some found
      rw [← named, name_inj, Except.ok.injEq, eq_comm]

theorem ofName_eq_error {text : String} {fault : Fault} :
    ofName text = .error fault ↔
      .unknownNeedleSet text = fault ∧ ∀ set : NeedleSet, set.name ≠ text := by
  rw [ofName]
  cases found : all.find? (·.name == text) with
  | none =>
      have unnamed := List.find?_eq_none.mp found
      simpa using fun _ set => unnamed set (mem_all set)
  | some other =>
      have named : other.name = text := by simpa using List.find?_some found
      simpa using fun _ => ⟨other, named⟩
theorem mem_sides {set : NeedleSet} {side : Side} :
    side ∈ set.sides ↔ set.side = none ∨ set.side = some side := by
  rw [sides]
  cases found : set.side with
  | none => cases side <;> simp
  | some other => simp [eq_comm]

end NeedleSet

namespace Machine

variable {machine : Machine} {needles : List Needle}

theorem sheetPositions_ascend {sheet gauge : Nat} {positions : List Nat}
    (found : machine.sheetPositions sheet gauge = .ok positions) :
    positions.Pairwise (· < ·) := by
  obtain ⟨⟨positive, _⟩, rfl⟩ := Strict.sheetPositions_eq_ok.mp found
  refine List.pairwise_map.mpr (List.pairwise_lt_range.imp fun lower => ?_)
  have above := Nat.mul_lt_mul_of_pos_left lower positive
  omega

theorem mem_sheetPositions {sheet gauge : Nat} {positions : List Nat}
    (found : machine.sheetPositions sheet gauge = .ok positions) {position : Nat} :
    position ∈ positions ↔ position < machine.needleCount ∧ position % gauge = sheet := by
  obtain ⟨⟨positive, _, exist, divides⟩, rfl⟩ := Strict.sheetPositions_eq_ok.mp found
  rw [List.mem_map]
  constructor
  · rintro ⟨index, member, rfl⟩
    refine ⟨Strict.sheetPosition_lt exist divides (List.mem_range.mp member), ?_⟩
    rw [Nat.add_mul_mod_self_left, Nat.mod_eq_of_lt exist]
  · rintro ⟨inRange, rfl⟩
    refine ⟨position / gauge, List.mem_range.mpr ?_, Nat.mod_add_div position gauge⟩
    exact Nat.div_lt_div_of_lt_of_dvd divides inRange

theorem positionsIn_ascend {scope : Scope} {positions : List Nat}
    (found : machine.positionsIn scope = .ok positions) : positions.Pairwise (· < ·) := by
  cases scope with
  | all =>
      cases found
      exact List.pairwise_lt_range
  | current => exact sheetPositions_ascend found
  | sheet sheet gauge => exact sheetPositions_ascend found

theorem mem_positionsIn {scope : Scope} {positions : List Nat}
    (found : machine.positionsIn scope = .ok positions) {position : Nat} :
    position ∈ positions ↔ scope.Covers machine position := by
  cases scope with
  | all =>
      cases found
      exact List.mem_range
  | current => exact mem_sheetPositions found
  | sheet sheet gauge => exact mem_sheetPositions found

theorem hasLoops_iff {needle : Needle} :
    machine.hasLoops needle = .ok true ↔ machine.holds needle = true := by
  rw [hasLoops, Bed.hasLoops, holds, Bed.loopsAt]
  cases (machine.bed needle.side).at? needle with
  | none => simp
  | some loops => simp

theorem mem_needleSet {set : NeedleSet} {scope : Scope}
    (found : machine.needleSet set scope = .ok needles) {needle : Needle} :
    needle ∈ needles ↔ set.Includes machine needle ∧ scope.Covers machine needle.position := by
  obtain ⟨positions, covered, same⟩ := bind_eq_ok.mp found
  obtain rfl := pure_eq_ok.mp same
  have onBed : needle ∈ (set.sides.flatMap fun side => positions.map (⟨side, ·, set.slider⟩)) ↔
      needle.side ∈ set.sides ∧ needle.slider = set.slider ∧ needle.position ∈ positions := by
    obtain ⟨side, position, slider⟩ := needle
    simp only [List.mem_flatMap, List.mem_map, Needle.mk.injEq]
    constructor
    · rintro ⟨_, isSide, _, inScope, rfl, rfl, rfl⟩
      exact ⟨isSide, rfl, inScope⟩
    · rintro ⟨isSide, rfl, inScope⟩
      exact ⟨side, isSide, position, inScope, rfl, rfl, rfl⟩
  have chosen : (!set.loopsOnly || machine.holds needle) = true ↔
      (set.loopsOnly = true → machine.hasLoops needle = .ok true) := by
    rw [hasLoops_iff]
    cases set.loopsOnly <;> simp
  rw [List.mem_filter, onBed, chosen, NeedleSet.mem_sides, mem_positionsIn covered]
  constructor
  · rintro ⟨⟨side, kind, inScope⟩, held⟩
    exact ⟨⟨side, kind, held⟩, inScope⟩
  · rintro ⟨⟨side, kind, held⟩, inScope⟩
    exact ⟨⟨side, kind, inScope⟩, held⟩

theorem needleSet_ordered {set : NeedleSet} {scope : Scope}
    (found : machine.needleSet set scope = .ok needles) : needles.Pairwise Needle.Before := by
  obtain ⟨positions, covered, same⟩ := bind_eq_ok.mp found
  obtain rfl := pure_eq_ok.mp same
  have onBed : ∀ side,
      (positions.map fun position => (⟨side, position, set.slider⟩ : Needle)).Pairwise
        Needle.Before := by
    intro side
    exact List.pairwise_map.mpr ((positionsIn_ascend covered).imp fun lower => Or.inr ⟨rfl, lower⟩)
  refine List.Pairwise.filter _ ?_
  rw [NeedleSet.sides]
  cases set.side with
  | some side => simpa using onBed side
  | none =>
      simp only [List.flatMap_cons, List.flatMap_nil, List.append_nil]
      refine List.pairwise_append.mpr ⟨onBed .front, onBed .back, ?_⟩
      intro first inFront second atBack
      obtain ⟨_, _, rfl⟩ := List.mem_map.mp inFront
      obtain ⟨_, _, rfl⟩ := List.mem_map.mp atBack
      exact Or.inl ⟨rfl, rfl⟩

theorem exists_needleSet_sheet {sheet gauge : Nat} (checked : checkGauge gauge = .ok ())
    (divides : gauge ∣ machine.needleCount) (exist : sheet < gauge) (set : NeedleSet) :
    ∃ part, machine.needleSet set (.sheet sheet gauge) = .ok part := by
  obtain ⟨positive, bounded⟩ := checkGauge_eq_ok.mp checked
  have positions : machine.positionsIn (.sheet sheet gauge) = .ok _ :=
    Strict.sheetPositions_eq_ok.mpr ⟨⟨positive, bounded, exist, divides⟩, rfl⟩
  rw [needleSet, positions]
  exact ⟨_, rfl⟩

structure FallsIntoSheets (machine : Machine) (set : NeedleSet) (gauge : Nat) (whole : List Needle)
    (parts : Nat → List Needle) : Prop where
  ofAll : machine.needleSet set .all = .ok whole
  ofSheet : ∀ sheet < gauge, machine.needleSet set (.sheet sheet gauge) = .ok (parts sheet)
  apart : ∀ first < gauge, ∀ second < gauge, first ≠ second →
    (parts first).Disjoint (parts second)
  union : ∀ needle, needle ∈ whole ↔ ∃ sheet < gauge, needle ∈ parts sheet

/-- What needle sets list, and how the lists of the sheets of any gauge that divides the bed lie to
the list of all positions. To look every needle up on its bed makes no difference. -/
structure ListsNeedles (machine : Machine) : Prop where
  listed : ∀ set scope needles, machine.needleSet set scope = .ok needles →
    needles.Nodup ∧ needles.Pairwise Needle.Before ∧ ∀ needle, needle ∈ needles ↔
      set.Includes machine needle ∧ scope.Covers machine needle.position
  sheets : ∀ set gauge, checkGauge gauge = .ok () → gauge ∣ machine.needleCount →
    ∃ whole parts, machine.FallsIntoSheets set gauge whole parts
  lookedUp : ∀ set scope,
    Strict.needleSet set scope machine = some (ask (·.needleSet set scope) machine)

theorem exists_fallsIntoSheets {gauge : Nat} (checked : checkGauge gauge = .ok ())
    (divides : gauge ∣ machine.needleCount) (set : NeedleSet) :
    ∃ whole parts, machine.FallsIntoSheets set gauge whole parts := by
  have each : ∀ sheet, ∃ part,
      sheet < gauge → machine.needleSet set (.sheet sheet gauge) = .ok part := by
    intro sheet
    by_cases exist : sheet < gauge
    · obtain ⟨part, found⟩ := exists_needleSet_sheet checked divides exist set
      exact ⟨part, fun _ => found⟩
    · exact ⟨[], fun inGauge => absurd inGauge exist⟩
  obtain ⟨parts, found⟩ := Classical.skolem.mp each
  have positive : 0 < gauge := (checkGauge_eq_ok.mp checked).1
  refine ⟨_, parts, rfl, found, ?_, fun needle => ?_⟩
  · intro first isFirst second isSecond differ needle inFirst inSecond
    obtain ⟨_, _, ofFirst⟩ := (mem_needleSet (found first isFirst)).mp inFirst
    obtain ⟨_, _, ofSecond⟩ := (mem_needleSet (found second isSecond)).mp inSecond
    omega
  · rw [mem_needleSet (rfl : machine.needleSet set .all = .ok _)]
    constructor
    · rintro ⟨included, inRange⟩
      have exist : needle.position % gauge < gauge := Nat.mod_lt _ positive
      exact ⟨_, exist, (mem_needleSet (found _ exist)).mpr ⟨included, inRange, rfl⟩⟩
    · rintro ⟨sheet, exist, member⟩
      obtain ⟨included, inRange, _⟩ := (mem_needleSet (found sheet exist)).mp member
      exact ⟨included, inRange⟩

theorem listsNeedles_of_reachable (reachable : machine.Reachable) : machine.ListsNeedles where
  listed set scope needles found := by
    have ordered := needleSet_ordered found
    exact ⟨ordered.imp Needle.Before.ne, ordered, fun needle => mem_needleSet found⟩
  sheets set gauge checked divides := exists_fallsIntoSheets checked divides set
  lookedUp set scope := (Strict.agrees_needleSet reachable.configured set scope).runs

/-- At gauge one, the needles with loops are told apart by the sheets of gauge two. -/
theorem listsNeedles_crossed :
    let machine := (initial twoNeedles).afterAll [.apply (.inhook ⟨1⟩),
      .apply (.tuck (.back 0) [⟨1⟩] none), .apply (.tuck (.front 1) [⟨1⟩] none)]
    let loops : NeedleSet := ⟨none, false, true⟩
    (machine.needleSet loops .current).toOption = some [.front 1, .back 0] ∧
      (machine.needleSet loops (.sheet 0 2)).toOption = some [.back 0] ∧
      (machine.needleSet loops (.sheet 1 2)).toOption = some [.front 1] ∧
      machine.ListsNeedles :=
  ⟨by decide +kernel, by decide +kernel, by decide +kernel,
    listsNeedles_of_reachable (reachable_twoNeedles _)⟩

end Machine

end VBed
