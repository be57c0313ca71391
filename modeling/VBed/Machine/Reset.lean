import VBed.Machine.Peel

/-!
Resetting a sheet peels the others away from it, and then returns its loops to the needles they
are on record for. What would be returned is found before anything is moved, from the presence of
loops that the peeling will leave behind.
-/

namespace VBed.Machine

def PeelPlan.projected (plan : PeelPlan) (machine : Machine) (position : Nat) : Presence :=
  if plan.moves.contains (.front position) then ⟨false, true⟩
  else if plan.moves.contains (.back position) then ⟨true, false⟩
  else machine.presence position

/-- The needle from which loops return to one that they are on record for alone; there is none
when they are in their place already. -/
def returnTo? (home : Needle) (atHome away : Bool) : Except Fault (Option Needle) :=
  match atHome, away with
  | true, true => .error (.blockedReturn home home.opposite)
  | true, false => .ok none
  | false, true => .ok (some home.opposite)
  | false, false => .error (.lostLoops home)

def returnStart? (recorded current : Presence) (position : Nat) :
    Except Fault (Option Needle) :=
  match recorded.front, recorded.back with
  | true, true =>
      if current.front && current.back then .ok none
      else .error (.unseparatedLoops (.front position) (.back position))
  | true, false => returnTo? (.front position) current.front current.back
  | false, true => returnTo? (.back position) current.back current.front
  | false, false => .ok none

def returnPlan (machine : Machine) (plan : PeelPlan) (chosen : Nat → Bool) :
    Except Fault (List Needle) := do
  let starts ← ((List.range machine.needleCount).filter chosen).mapM fun position =>
    returnStart? (machine.record.getD position ⟨false, false⟩)
      (plan.projected machine position) position
  return starts.filterMap id

def returnNote (start : Needle) (loops : List LoopId) : String :=
  (match start.side with
    | .front => "return"
    | .back => "Return") ++
    " loops " ++ Text.bracketed (loops.map (·.index)) ++ " on " ++ start.text ++ " to " ++
    start.opposite.text

def returnLoops (start : Needle) : Action Line := do
  let loops ← ask (·.loopsAt start)
  let _ ← xfer start start.opposite
  return .instruction (.xfer start start.opposite) (some (returnNote start loops))

def resetBy (plan : PeelPlan) (active : String) (chosen : Nat → Bool) : Action (List Line) := do
  let returns ← ask (·.returnPlan plan chosen)
  ask fun machine => machine.checkCrossings (plan.ordered machine ++ returns)
  return (← straightenFor (plan.moves ++ returns)) ++ (← carryOut plan active) ++
    (← returns.mapM returnLoops)

/-- Returns the loops of a sheet, and loops of other sheets in its layer, to their places. -/
def reset (sheet : Nat) : Action (List Line) := do
  let machine ← get
  let plan ← ask (·.peelPlan sheet)
  resetBy plan (Text.decimal sheet) fun position =>
    machine.sheetOf position == sheet || plan.sameLayer.contains position

def resetAll (sheets : List Nat) : Action (List Line) := do
  let machine ← get
  let plan ← ask (·.peelPlanAll sheets)
  resetBy plan (Text.bracketed sheets) fun position => sheets.contains (machine.sheetOf position)

end VBed.Machine
