import VBed.Machine.Layer

/-!
Needle sets are named by bed, by kind, and by whether only needles with loops are meant. They are
taken from all positions of the beds or from the positions of one sheet.
-/

namespace VBed

structure NeedleSet where
  /-- The one bed that the set is on; without it the set is on both. -/
  side : Option Side
  slider : Bool
  loopsOnly : Bool
deriving DecidableEq, Repr

namespace NeedleSet

def perSide (slider loopsOnly : Bool) : List NeedleSet :=
  [⟨none, slider, loopsOnly⟩, ⟨some .front, slider, loopsOnly⟩, ⟨some .back, slider, loopsOnly⟩]

def all : List NeedleSet :=
  perSide false false ++ perSide true false ++ perSide false true ++ perSide true true

def kindName (set : NeedleSet) : String :=
  match set.slider, set.loopsOnly with
  | false, false => "Needles"
  | true, false => "Sliders"
  | false, true => "Loops"
  | true, true => "Slider_Loops"

def name (set : NeedleSet) : String :=
  match set.side with
  | none => set.kindName
  | some .front => "Front_" ++ set.kindName
  | some .back => "Back_" ++ set.kindName

def ofName (name : String) : Except Fault NeedleSet :=
  match all.find? (·.name == name) with
  | some set => .ok set
  | none => .error (.unknownNeedleSet name)

def sides (set : NeedleSet) : List Side :=
  match set.side with
  | none => [.front, .back]
  | some side => [side]

end NeedleSet

inductive Scope where
  | all
  | current
  | sheet (sheet gauge : Nat)
deriving DecidableEq, Repr, Inhabited

namespace Machine

def sheetPositions (machine : Machine) (sheet gauge : Nat) : Except Fault (List Nat) := do
  checkSheet sheet gauge
  let count ← machine.sheetNeedleCount (some gauge)
  return (List.range count).map (sheet + gauge * ·)

def positionsIn (machine : Machine) : Scope → Except Fault (List Nat)
  | .all => .ok (List.range machine.needleCount)
  | .current => machine.sheetPositions machine.sheet machine.gauge
  | .sheet sheet gauge => machine.sheetPositions sheet gauge

def holds (machine : Machine) (needle : Needle) : Bool :=
  !(((machine.bed needle.side).at? needle).getD []).isEmpty

/-- The needles of a set: those in front before those at the back, each by position. -/
def needleSet (machine : Machine) (set : NeedleSet) (scope : Scope) :
    Except Fault (List Needle) := do
  let positions ← machine.positionsIn scope
  let needles := set.sides.flatMap fun side => positions.map (⟨side, ·, set.slider⟩)
  return needles.filter fun needle => !set.loopsOnly || machine.holds needle

end Machine

end VBed
