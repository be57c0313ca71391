import VBed.Document.Graph
import VBed.Document.Knitout
import VBed.Main
import VBed.Proofs.Adding
import VBed.Proofs.Clearance
import VBed.Proofs.Commuting
import VBed.Proofs.Crossing
import VBed.Proofs.Facing
import VBed.Proofs.Foretelling
import VBed.Proofs.GraphText
import VBed.Proofs.LayerPushes
import VBed.Proofs.NeedleLists
import VBed.Proofs.NeedleNames
import VBed.Proofs.NewLoops
import VBed.Proofs.PassOrder
import VBed.Proofs.ProgramText
import VBed.Proofs.Refusals
import VBed.Proofs.Safety
import VBed.Proofs.SheetAddresses
import VBed.Proofs.SheetNames
import VBed.Proofs.SheetSets
import VBed.Proofs.Splitting
import VBed.Proofs.Stitches
import VBed.Proofs.TextLines
import VBed.Proofs.TransferLines
