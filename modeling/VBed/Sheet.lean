import VBed.Fault

/-!
At gauge `g` the bed interleaves `g` sheets: position `p` belongs to sheet `p % g`, at the sheet
position `p / g`. The positions that share a sheet position form one gauge group.
-/

namespace VBed

def maxGauge : Nat := 10

def checkGauge (gauge : Nat) : Except Fault Unit :=
  if gauge = 0 ∨ maxGauge < gauge then .error (.gaugeOutOfRange gauge maxGauge) else .ok ()

def checkSheet (sheet gauge : Nat) : Except Fault Unit := do
  checkGauge gauge
  if gauge ≤ sheet then throw (.sheetOutOfRange sheet gauge)

structure SheetNeedle where
  side : Side
  sheetPosition : Nat
  sheet : Nat
  gauge : Nat
  slider : Bool
deriving DecidableEq, Repr

namespace SheetNeedle

def of (side : Side) (sheetPosition sheet gauge : Nat) (slider : Bool) :
    Except Fault SheetNeedle := do
  checkSheet sheet gauge
  return ⟨side, sheetPosition, sheet, gauge, slider⟩

def ofNeedle (needle : Needle) (gauge : Nat) : Except Fault SheetNeedle := do
  checkGauge gauge
  return ⟨needle.side, needle.position / gauge, needle.position % gauge, gauge, needle.slider⟩

def position? (needle : SheetNeedle) : Option Nat :=
  let position := needle.gauge * needle.sheetPosition + needle.sheet
  if position < Text.wordCount then some position else none

/-- The position on the bed; one beyond the machine words becomes the last word. -/
def position (needle : SheetNeedle) : Nat :=
  needle.position?.getD (Text.wordCount - 1)

def needle (needle : SheetNeedle) : Needle :=
  ⟨needle.side, needle.position, needle.slider⟩

def neighbours (needle : SheetNeedle) : List SheetNeedle :=
  ((List.range needle.gauge).filter (· ≠ needle.sheet)).map ({ needle with sheet := · })

def text (needle : SheetNeedle) : String :=
  String.ofList (needle.side.letter :: if needle.slider then ['s'] else []) ++
    Text.decimal needle.sheetPosition ++ ":s" ++ Text.decimal needle.sheet ++
    ":g" ++ Text.decimal needle.gauge

end SheetNeedle

structure SheetId where
  sheet : Nat
  gauge : Nat
deriving DecidableEq, Repr

namespace SheetId

def of (sheet gauge : Nat) : Except Fault SheetId := do
  checkSheet sheet gauge
  return ⟨sheet, gauge⟩

def splitGauge : List Char → Option (List Char × List Char)
  | ':' :: 'g' :: rest => some ([], rest)
  | character :: rest => (splitGauge rest).map fun (left, right) => (character :: left, right)
  | [] => none

def parts? (text : String) : Option (Nat × Option Nat) :=
  match Text.trim text.toList with
  | 's' :: body =>
      match splitGauge body with
      | some (sheet, gauge) => do return (← Text.word? sheet, some (← Text.word? gauge))
      | none => (Text.word? body).map ((·, none))
  | _ => none

def ofText (text : String) (defaultGauge : Nat) : Except Fault SheetId :=
  match parts? text with
  | some (sheet, gauge) => of sheet (gauge.getD defaultGauge)
  | none => .error (.invalidSheet text)

def text (id : SheetId) : String :=
  "s" ++ Text.decimal id.sheet ++ ":g" ++ Text.decimal id.gauge

def needle (id : SheetId) (side : Side) (sheetPosition : Nat) : SheetNeedle :=
  ⟨side, sheetPosition, id.sheet, id.gauge, false⟩

end SheetId

end VBed
