import VBed.CommandLine.Arguments
import VBed.Document.Program

/-!
What the program reports: the description of a machine, the knitout of a program, and how a fault
is told. Files are given by their contents, or by the fault that keeps them from being read.
-/

namespace VBed.CommandLine

abbrev Contents := Except Fault String

def missingReason : String := "No such file or directory (os error 2)"

def Contents.missing : Contents :=
  .error (.unreadableFile missingReason)

def specOf : Option Contents → Except Fault Spec
  | none => .ok .standard
  | some contents => do Spec.ofText (← contents)

def column (number : Nat) : String :=
  let digits := Text.decimal number
  String.ofList (List.replicate (5 - digits.length) ' ') ++ digits

def gaugeLine? (machine : Machine) (gauge : Nat) : Option String :=
  match machine.sheetNeedleCount (some gauge) with
  | .ok count => some (column gauge ++ " | " ++ Text.decimal count)
  | .error _ => none

def description (machine : Machine) : List String :=
  ["=== Machine ===",
    "Needles per bed: " ++ Text.decimal machine.needleCount,
    "Max racking: " ++ machine.spec.maxRack.plainText,
    "Carriers: " ++ Text.decimal machine.carriers.count,
    "Hook size: " ++ Text.decimal machine.carriers.hookSize,
    "",
    "Gauge | Sheet needles",
    "----------------------"] ++
    ((List.range maxGauge).map (· + 1)).filterMap (gaugeLine? machine)

def unlines (lines : List String) : String :=
  String.join (lines.map (· ++ "\n"))

def info (machine : Option Contents) : Except Fault String := do
  let machine ← Machine.of (← specOf machine)
  return unlines (description machine)

/-- The empty machine on which a program runs. The machine of a file goes before the program's
own. -/
def machineFor (program : Program) (machine : Option Contents) : Except Fault Machine :=
  match machine with
  | some _ => do Machine.of (← specOf machine)
  | none => program.start .standard

def runProgram (program : Contents) (machine : Option Contents) : Except Fault String := do
  let program ← Program.ofText (← program)
  let machine ← machineFor program machine
  match program.run machine with
  | .ok lines _ => return Line.render (.header :: lines)
  | .error fault _ => throw fault

structure Outcome where
  exit : Nat
  output : String
  complaint : String
deriving DecidableEq, Repr

namespace Outcome

def success (output : String) : Outcome :=
  ⟨0, output, ""⟩

/-- The lines that tell the causes of a failure, numbered when there are several. -/
def causeLines : List String → List String
  | [cause] => ["    " ++ cause]
  | causes => causes.mapIdx fun index cause => "    " ++ Text.decimal index ++ ": " ++ cause

def failure (attempt : String) (fault : Fault) : Outcome :=
  ⟨1, "", unlines (["Error: " ++ attempt, "", "Caused by:"] ++ causeLines fault.causes)⟩

def of (attempt : String) : Except Fault String → Outcome
  | .ok output => success output
  | .error fault => failure attempt fault

end Outcome

def release : String := "0.1.0"

def usage : List String :=
  ["V-bed knitting machine state simulator",
    "",
    "Usage: knit-machine [-v] [COMMAND]",
    "",
    "Commands:",
    "  info [-m FILE]          Show the machine and the sheet sizes per gauge",
    "  run PROGRAM [-m FILE]   Replay a program and print its knitout"]

def Request.files : Request → List String
  | info machine => machine.toList
  | run program machine => program :: machine.toList
  | _ => []

def Request.answer (file : String → Contents) : Request → Outcome
  | banner => .success (unlines ["Knit Machine v" ++ release, "Use --help for available commands"])
  | version => .success (unlines ["knit-machine " ++ release])
  | help => .success (unlines usage)
  | misuse => ⟨2, "", unlines usage⟩
  | info machine => .of "failed to describe machine" (CommandLine.info (machine.map file))
  | run program machine =>
      .of ("failed to run " ++ program) (runProgram (file program) (machine.map file))

end VBed.CommandLine
