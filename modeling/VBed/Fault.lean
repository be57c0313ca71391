import VBed.Binary64.Text
import VBed.Needle
import VBed.Text.Listing
import VBed.Yarn

/-!
Faults: what an operation can refuse, and how it is reported. Every fault has a code, a message
and a kind; the kind tells whether a caller can go on, and some faults come with a suggestion.
-/

namespace VBed

structure LoopId where
  index : Nat
deriving DecidableEq, Repr, Inhabited

def LoopId.text (id : LoopId) : String :=
  Text.decimal id.index

inductive Fault where
  | carrierAlreadyActive (carrier : CarrierId)
  | carrierNotActive (carrier : CarrierId)
  | carrierNotHooked (carrier : CarrierId)
  | carrierNotInService (carrier : CarrierId)
  | unknownCarrier (carrier : CarrierId) (carrierCount : Nat)
  | hookInUse (carrier hooked : CarrierId)
  | needleNotClear (needle : Needle)
  | rackingMismatch (racking : Binary64) (front back : Needle)
  | slidersInUse (verb : String)
  | sliderOperation (verb : String) (needle : Needle)
  | sameBedTransfer (start target : Needle)
  | needleOutOfRange (position : Int) (needleCount : Nat)
  | rackingOutOfRange (racking maxRack : Binary64)
  | gaugeOutOfRange (gauge maxGauge : Nat)
  | unevenGauge (gauge needleCount : Nat)
  | sheetOutOfRange (sheet gauge : Nat)
  | layerOutOfRange (layer gauge : Nat)
  | inconsistentSheetLayering (sheets : List Nat) (position : Nat)
  | unseparableSheets (sheet : Nat) (sheets : List Nat) (position : Nat)
  | noActiveSheets
  | lostLoops (needle : Needle)
  | unseparatedLoops (front back : Needle)
  | blockedReturn (target blocking : Needle)
  | loopOnBothBeds (loop : LoopId) (front back : Needle)
  | unknownLoop (loop : LoopId)
  | carrierStillHooked (carrier : CarrierId)
  | invalidMachineSpec (reason : String)
  | invalidNeedle (text : String)
  | invalidSheet (text : String)
  | unknownNeedleSet (name : String)
  | unreadableFile (reason : String)
  | interruptedDocument (reason : String)
  | malformedDocument
deriving DecidableEq

namespace Fault

inductive Kind where
  | carrierProtocol
  | needleLegality
  | gaugeSheet
  | internalConsistency
  | configuration
deriving DecidableEq, Repr

def Kind.text : Kind → String
  | carrierProtocol => "CarrierProtocol"
  | needleLegality => "NeedleLegality"
  | gaugeSheet => "GaugeSheet"
  | internalConsistency => "InternalConsistency"
  | configuration => "Configuration"

def kind : Fault → Kind
  | carrierAlreadyActive _ | carrierNotActive _ | carrierNotHooked _ | carrierNotInService _
  | unknownCarrier _ _ | hookInUse _ _ => .carrierProtocol
  | needleNotClear _ | rackingMismatch _ _ _ | slidersInUse _ | sliderOperation _ _
  | sameBedTransfer _ _ | needleOutOfRange _ _ | rackingOutOfRange _ _ => .needleLegality
  | gaugeOutOfRange _ _ | unevenGauge _ _ | sheetOutOfRange _ _ | layerOutOfRange _ _
  | inconsistentSheetLayering _ _ | unseparableSheets _ _ _ | noActiveSheets => .gaugeSheet
  | lostLoops _ | unseparatedLoops _ _ | blockedReturn _ _ | loopOnBothBeds _ _ _
  | unknownLoop _ | carrierStillHooked _ => .internalConsistency
  | invalidMachineSpec _ | invalidNeedle _ | invalidSheet _ | unknownNeedleSet _
  | unreadableFile _ | interruptedDocument _ | malformedDocument => .configuration

def code : Fault → String
  | carrierAlreadyActive _ => "CARRIER_ALREADY_ACTIVE"
  | carrierNotActive _ => "CARRIER_NOT_ACTIVE"
  | carrierNotHooked _ => "CARRIER_NOT_HOOKED"
  | carrierNotInService _ => "CARRIER_NOT_IN_SERVICE"
  | unknownCarrier _ _ => "UNKNOWN_CARRIER"
  | hookInUse _ _ => "HOOK_IN_USE"
  | needleNotClear _ => "NEEDLE_NOT_CLEAR"
  | rackingMismatch _ _ _ => "RACKING_MISMATCH"
  | slidersInUse _ => "SLIDERS_IN_USE"
  | sliderOperation _ _ => "SLIDER_OPERATION"
  | sameBedTransfer _ _ => "SAME_BED_TRANSFER"
  | needleOutOfRange _ _ => "NEEDLE_OUT_OF_RANGE"
  | rackingOutOfRange _ _ => "RACKING_OUT_OF_RANGE"
  | gaugeOutOfRange _ _ => "GAUGE_OUT_OF_RANGE"
  | unevenGauge _ _ => "UNEVEN_GAUGE"
  | sheetOutOfRange _ _ => "SHEET_OUT_OF_RANGE"
  | layerOutOfRange _ _ => "LAYER_OUT_OF_RANGE"
  | inconsistentSheetLayering _ _ => "INCONSISTENT_SHEET_LAYERING"
  | unseparableSheets _ _ _ => "UNSEPARABLE_SHEETS"
  | noActiveSheets => "NO_ACTIVE_SHEETS"
  | lostLoops _ => "LOST_LOOPS"
  | unseparatedLoops _ _ => "UNSEPARATED_LOOPS"
  | blockedReturn _ _ => "BLOCKED_RETURN"
  | loopOnBothBeds _ _ _ => "LOOP_ON_BOTH_BEDS"
  | unknownLoop _ => "UNKNOWN_LOOP"
  | carrierStillHooked _ => "CARRIER_STILL_HOOKED"
  | invalidMachineSpec _ => "INVALID_MACHINE_SPEC"
  | invalidNeedle _ => "INVALID_NEEDLE"
  | invalidSheet _ => "INVALID_SHEET"
  | unknownNeedleSet _ => "UNKNOWN_NEEDLE_SET"
  | unreadableFile _ => "IO_ERROR"
  | interruptedDocument _ => "SERIALIZATION_ERROR"
  | malformedDocument => "SERIALIZATION_ERROR"

def message : Fault → String
  | carrierAlreadyActive carrier => "Carrier " ++ carrier.text ++ " is already active"
  | carrierNotActive carrier => "Carrier " ++ carrier.text ++ " is not active"
  | carrierNotHooked carrier =>
      "Carrier " ++ carrier.text ++ " is not on the yarn inserting hook"
  | carrierNotInService carrier => "Carrier " ++ carrier.text ++ " is not in service"
  | unknownCarrier carrier carrierCount =>
      "Carrier " ++ carrier.text ++ " does not exist on a machine with " ++
        Text.decimal carrierCount ++ " carriers"
  | hookInUse carrier hooked =>
      "Cannot inhook carrier " ++ carrier.text ++ ": the yarn inserting hook holds carrier " ++
        hooked.text
  | needleNotClear needle => needle.text ++ " is not clear for transfer"
  | rackingMismatch racking front back =>
      "Racking " ++ racking.plainText ++ " does not match " ++ front.text ++ " to " ++ back.text
  | slidersInUse verb => "Cannot " ++ verb ++ " while sliders hold loops"
  | sliderOperation verb needle => "Cannot " ++ verb ++ " on slider " ++ needle.text
  | sameBedTransfer start target =>
      "Cannot transfer from " ++ start.text ++ " to " ++ target.text ++ " on the same bed"
  | needleOutOfRange position needleCount =>
      "Needle position " ++ Text.signedDecimal position ++ " is outside a bed of " ++
        Text.decimal needleCount ++ " needles"
  | rackingOutOfRange racking maxRack =>
      "Racking " ++ racking.plainText ++ " exceeds the maximum racking " ++ maxRack.plainText
  | gaugeOutOfRange gauge maxGauge =>
      "Gauge " ++ Text.decimal gauge ++ " must be between 1 and " ++ Text.decimal maxGauge
  | unevenGauge gauge needleCount =>
      "Gauge " ++ Text.decimal gauge ++ " does not evenly divide " ++ Text.decimal needleCount ++
        " needles"
  | sheetOutOfRange sheet gauge =>
      "Sheet " ++ Text.decimal sheet ++ " must be between 0 and the gauge " ++ Text.decimal gauge
  | layerOutOfRange layer gauge =>
      "Layer " ++ Text.decimal layer ++ " must be between 0 and the gauge " ++ Text.decimal gauge
  | inconsistentSheetLayering sheets position =>
      "Cannot work sheets " ++ Text.bracketed sheets ++ " with different layers at needle " ++
        Text.decimal position
  | unseparableSheets sheet sheets position =>
      "Cannot separate sheet " ++ Text.decimal sheet ++ " from sheets " ++
        Text.bracketed sheets ++ " sharing a layer at needle " ++ Text.decimal position
  | noActiveSheets => "No active sheets were given"
  | lostLoops needle => "Loops recorded on " ++ needle.text ++ " have been lost"
  | unseparatedLoops front back =>
      "Loops recorded on " ++ front.text ++ " and " ++ back.text ++
        " cannot be returned to a separated state"
  | blockedReturn target blocking =>
      "Cannot return loops to " ++ target.text ++ " because loops remain on " ++ blocking.text
  | loopOnBothBeds loop front back =>
      "Loop " ++ loop.text ++ " cannot be on " ++ front.text ++ " and " ++ back.text
  | unknownLoop loop => "Loop " ++ loop.text ++ " is not in the knit graph"
  | carrierStillHooked carrier =>
      "Carrier " ++ carrier.text ++ " is still on the yarn inserting hook"
  | invalidMachineSpec reason => "Invalid machine specification: " ++ reason
  | invalidNeedle text => "Cannot parse needle '" ++ text ++ "'"
  | invalidSheet text => "Cannot parse sheet '" ++ text ++ "'"
  | unknownNeedleSet name => "Unknown needle set '" ++ name ++ "'"
  | unreadableFile reason => "I/O error: " ++ reason
  | interruptedDocument reason => "Serialization error: " ++ reason
  | malformedDocument => "Serialization error"

def causes : Fault → List String
  | unreadableFile reason => [(unreadableFile reason).message, reason]
  | interruptedDocument reason => [(interruptedDocument reason).message, reason]
  | fault => [fault.message]

/-- An internal fault is one that proper sequencing of operations cannot produce. -/
def isInternal (fault : Fault) : Bool :=
  fault.kind == .internalConsistency

/-- After a recoverable fault a caller can go on using the machine. -/
def isRecoverable (fault : Fault) : Bool :=
  fault.kind == .carrierProtocol || fault.kind == .needleLegality || fault.kind == .gaugeSheet

def suggestion? : Fault → Option String
  | carrierNotInService _ =>
      some "Bring the carrier in with 'in' or 'inhook' before knitting with it."
  | carrierStillHooked _ =>
      some "Release the yarn inserting hook before taking the carrier out."
  | rackingMismatch _ _ _ =>
      some "Rack the machine to align the transfer needles first."
  | slidersInUse _ =>
      some "Transfer loops off the sliders before knitting, tucking or dropping."
  | unevenGauge _ _ =>
      some "Choose a gauge that divides the machine's needle count."
  | unseparableSheets _ _ _ =>
      some "Move one of the sheets to a different layer before working them."
  | _ => none

end Fault

def Needle.ofText (text : String) : Except Fault Needle :=
  match Needle.ofText? text with
  | some needle => .ok needle
  | none => .error (.invalidNeedle text)

end VBed
