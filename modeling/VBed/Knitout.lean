import VBed.Binary64.Text
import VBed.Direction
import VBed.Yarn

/-!
Knitout is the text of the instructions that a machine carries out, one line each. A line that
starts with a semicolon is a comment, and an instruction can have a comment behind it.
-/

namespace VBed

inductive Instruction where
  | knit (direction : Direction) (needle : Needle) (carriers : CarrierSet)
  | tuck (direction : Direction) (needle : Needle) (carriers : CarrierSet)
  | split (direction : Direction) (start target : Needle) (carriers : CarrierSet)
  | drop (needle : Needle)
  | xfer (start target : Needle)
  | rack (racking : Binary64)
  | bringIn (carriers : CarrierSet)
  | inhook (carriers : CarrierSet)
  | releasehook (carriers : CarrierSet)
  | out (carriers : CarrierSet)
  | outhook (carriers : CarrierSet)
deriving DecidableEq

namespace Instruction

def words : Instruction → List String
  | knit direction needle carriers => ["knit", direction.text, needle.text, carriers.text]
  | tuck direction needle carriers => ["tuck", direction.text, needle.text, carriers.text]
  | split direction start target carriers =>
      ["split", direction.text, start.text, target.text, carriers.text]
  | drop needle => ["drop", needle.text]
  | xfer start target => ["xfer", start.text, target.text]
  | rack racking => ["rack", racking.plainText]
  | bringIn carriers => ["in", carriers.text]
  | inhook carriers => ["inhook", carriers.text]
  | releasehook carriers => ["releasehook", carriers.text]
  | out carriers => ["out", carriers.text]
  | outhook carriers => ["outhook", carriers.text]

def text (instruction : Instruction) : String :=
  " ".intercalate instruction.words

end Instruction

inductive Line where
  | version (number : Nat)
  | comment (text : String)
  | instruction (content : Instruction) (note : Option String)
deriving DecidableEq

namespace Line

def header : Line := .version 2

def plain (instruction : Instruction) : Line :=
  .instruction instruction none

def instruction? : Line → Option Instruction
  | instruction content _ => some content
  | _ => none

def hasComment : Line → Bool
  | version _ => false
  | comment _ => true
  | instruction _ note => note.isSome

def content : Line → String
  | version number => ";!knitout-" ++ Text.decimal number
  | comment text => ";" ++ text
  | instruction content none => content.text
  | instruction content (some note) => content.text ++ ";" ++ note

def text (line : Line) : String :=
  line.content ++ "\n"

def render (lines : List Line) : String :=
  String.join (lines.map Line.text)

end Line

end VBed
