import VBed.Side
import VBed.Text.Blank
import VBed.Text.Decimal

/-!
Needles are named by bed, position and kind: each position of a bed has an ordinary needle and a
slider. The notation is the letter of the bed, an `s` for a slider, and the position.
-/

namespace VBed

structure Needle where
  side : Side
  position : Nat
  slider : Bool
deriving DecidableEq, Repr, Inhabited

namespace Needle

def front (position : Nat) : Needle := ⟨.front, position, false⟩

def back (position : Nat) : Needle := ⟨.back, position, false⟩

def opposite (needle : Needle) : Needle :=
  { needle with side := needle.side.opposite }

def asSlider (needle : Needle) : Needle :=
  { needle with slider := true }

def main (needle : Needle) : Needle :=
  { needle with slider := false }

def text (needle : Needle) : String :=
  String.ofList (needle.side.letter :: if needle.slider then ['s'] else []) ++
    Text.decimal needle.position

def ofRest? (side : Side) (rest : List Char) : Option Needle :=
  match rest with
  | 's' :: digits => (Text.word? digits).map (⟨side, ·, true⟩)
  | digits => (Text.word? digits).map (⟨side, ·, false⟩)

def ofText? (text : String) : Option Needle :=
  match Text.trim text.toList with
  | 'f' :: rest => ofRest? .front rest
  | 'b' :: rest => ofRest? .back rest
  | _ => none

@[simp] theorem opposite_opposite (needle : Needle) : needle.opposite.opposite = needle := by
  simp [opposite]

end Needle

end VBed
