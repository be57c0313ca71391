import VBed.Fault

/-!
The measures of a machine: how many needles each bed has, how far the beds can be racked, how many
carriers feed yarn, and how many needles the inserting hook blocks.
-/

namespace VBed

structure Spec where
  needleCount : Nat
  maxRack : Binary64
  carrierCount : Nat
  hookSize : Nat
deriving DecidableEq

namespace Spec

/-- The greatest racking of a common machine, four and a quarter needles. -/
def standardRack : Binary64 :=
  .round false (17 * Binary64.one) 4

def standard : Spec :=
  ⟨250, standardRack, 10, 5⟩

instance : Inhabited Spec := ⟨standard⟩

def check (spec : Spec) : Except Fault Unit := do
  if spec.needleCount = 0 then
    throw (.invalidMachineSpec "needle_count must be greater than 0")
  if spec.carrierCount = 0 then
    throw (.invalidMachineSpec "carrier_count must be greater than 0")
  if !spec.maxRack.isFinite || spec.maxRack.less .zero then
    throw (.invalidMachineSpec
      ("max_rack must be a non-negative number, got " ++ spec.maxRack.plainText))

end Spec

end VBed
