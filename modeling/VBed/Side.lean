/-!
The two beds of a V-bed machine face each other: one in front, one at the back.
-/

namespace VBed

inductive Side where
  | front
  | back
deriving DecidableEq, Repr, Inhabited

namespace Side

def opposite : Side → Side
  | front => back
  | back => front

def letter : Side → Char
  | front => 'f'
  | back => 'b'

@[simp] theorem opposite_opposite (side : Side) : side.opposite.opposite = side := by
  cases side <;> rfl

end Side

end VBed
