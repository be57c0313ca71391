/-!
Binary64 numbers. A finite number is a sign and a count of units, where a unit is the least
positive number, two to the power -1074; zero has both signs. A count is representable when it
has at most fifty-three significant bits and lies below two to the power 1024.
-/

namespace VBed

namespace Binary64

def unitExponent : Nat := 1074

def beyondExponent : Nat := 1024

def one : Nat := Nat.pow 2 unitExponent

def beyond : Nat := Nat.pow 2 beyondExponent * one

def Representable (units : Nat) : Prop :=
  units < beyond ∧ units % Nat.pow 2 (units.log2 - 52) = 0

instance (units : Nat) : Decidable (Representable units) :=
  inferInstanceAs (Decidable (_ ∧ _))

theorem power_pos (exponent : Nat) : 0 < Nat.pow 2 exponent :=
  Nat.two_pow_pos exponent

theorem one_pos : 0 < one := by
  unfold one
  exact power_pos unitExponent

theorem beyond_pos : 0 < beyond :=
  Nat.mul_pos (power_pos beyondExponent) one_pos

theorem representable_zero : Representable 0 :=
  ⟨beyond_pos, Nat.zero_mod _⟩

structure Magnitude where
  units : Nat
  representable : Representable units
deriving DecidableEq

end Binary64

/-- A binary64 number; all that are not a number count as one. -/
inductive Binary64 where
  | finite (negative : Bool) (magnitude : Binary64.Magnitude)
  | infinite (negative : Bool)
  | nan
deriving DecidableEq

namespace Binary64

def zero : Binary64 :=
  .finite false ⟨0, representable_zero⟩

instance : Inhabited Binary64 := ⟨zero⟩

def signed (negative : Bool) (units : Nat) : Int :=
  if negative then -units else units

/-- The place of a number on the line, in units; the infinities lie beyond all finite numbers,
and what is not a number has no place. Both zeros lie at the same place. -/
def place? : Binary64 → Option Int
  | .finite negative magnitude => some (signed negative magnitude.units)
  | .infinite negative => some (signed negative beyond)
  | .nan => none

def isFinite : Binary64 → Bool
  | .finite _ _ => true
  | _ => false

def equal (left right : Binary64) : Bool :=
  match left.place?, right.place? with
  | some first, some second => first == second
  | _, _ => false

def less (left right : Binary64) : Bool :=
  match left.place?, right.place? with
  | some first, some second => first < second
  | _, _ => false

def abs : Binary64 → Binary64
  | .finite _ magnitude => .finite false magnitude
  | .infinite _ => .infinite false
  | .nan => .nan

def neg : Binary64 → Binary64
  | .finite negative magnitude => .finite (!negative) magnitude
  | .infinite negative => .infinite (!negative)
  | .nan => .nan

/-- The greatest signed machine word not above the number; numbers beyond the words go to the
nearest one, and what is not a number to zero. -/
def floorWord : Binary64 → Int
  | .finite negative magnitude =>
      max (-Nat.pow 2 63) (min (Nat.pow 2 63 - 1) ((signed negative magnitude.units).fdiv one))
  | .infinite negative => if negative then -Nat.pow 2 63 else Nat.pow 2 63 - 1
  | .nan => 0

end Binary64

end VBed
