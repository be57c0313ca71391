import VBed.Needle

/-!
The carriage passes over the beds in one of two directions and reaches the needles in the order
of the pass: by position, at one position the front bed first, on one bed the ordinary needle
before the slider.
-/

namespace VBed

inductive Direction where
  | leftToRight
  | rightToLeft
deriving DecidableEq, Repr, Inhabited

def Needle.rank (needle : Needle) : Nat :=
  (match needle.side with
    | .front => 0
    | .back => 2) + needle.slider.toNat

namespace Direction

def opposite : Direction → Direction
  | leftToRight => rightToLeft
  | rightToLeft => leftToRight

/-- The sign of a direction: plus for increasing positions. -/
def text : Direction → String
  | leftToRight => "+"
  | rightToLeft => "-"

def reaches (direction : Direction) (first second : Needle) : Bool :=
  if first.position = second.position then first.rank ≤ second.rank
  else match direction with
    | leftToRight => first.position < second.position
    | rightToLeft => second.position < first.position

def sort (direction : Direction) (needles : List Needle) : List Needle :=
  needles.mergeSort direction.reaches

end Direction

end VBed
