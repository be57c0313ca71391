import VBed.Text.Decimal

/-!
Carriers feed yarn. Cutting the yarn of a carrier starts a new segment, and loops of different
segments are not continuous.
-/

namespace VBed

structure CarrierId where
  number : Nat
deriving DecidableEq, Repr, Inhabited

def CarrierId.text (id : CarrierId) : String :=
  Text.decimal id.number

/-- The carriers that feed one operation, in order; a carrier may occur more than once. -/
abbrev CarrierSet := List CarrierId

def CarrierSet.text (carriers : CarrierSet) : String :=
  " ".intercalate (carriers.map CarrierId.text)

structure Yarn where
  carrier : CarrierId
  segment : Nat
deriving DecidableEq, Repr, Inhabited

namespace Yarn

abbrev segmentCount : Nat := Nat.pow 2 32

def first (carrier : CarrierId) : Yarn := ⟨carrier, 0⟩

def cut (yarn : Yarn) : Yarn :=
  { yarn with segment := (yarn.segment + 1) % segmentCount }

def before (left right : Yarn) : Bool :=
  left.carrier.number < right.carrier.number ||
    left.carrier.number == right.carrier.number && left.segment < right.segment

def text (yarn : Yarn) : String :=
  "yarn " ++ yarn.carrier.text ++ "." ++ Text.decimal yarn.segment

end Yarn

end VBed
