import Mathlib.Algebra.Group.Int.Defs
import VBed.Document.Program
import VBed.Proofs.ShortNumerals

/-!
A program is read back from its text. Every part of a program is written as JSON that is plain,
that is read as the part, and that nests no deeper than the reader goes. The words and integers of
a program must be of their machine types, and its binary64 numbers must be read back from their
numerals, as those with short numerals are.
-/

namespace VBed

def Binary64.ReadsBack (number : Binary64) : Prop :=
  (Json.Numeral.ofBinary64? number).bind (·.binary64?) = some number

instance (number : Binary64) : Decidable number.ReadsBack :=
  inferInstanceAs (Decidable (_ = _))

theorem Binary64.IsShort.readsBack {number : Binary64} (short : number.IsShort) :
    number.ReadsBack :=
  short.binary64?_numeral

example : ¬(Binary64.ofNat 9007199254740991).ReadsBack := by
  decide +kernel

namespace Json

/-- JSON that stands for a value: it is plain, it has no more than `depth` arrays and objects one in
another, and the reader accepts it as the value. -/
structure Gives {α : Type} (depth : Nat) (read? : Json → Option α) (json : Json) (value : α) :
    Prop where
  plain : json.Plain
  proper : json.isProper depth = true
  reads : read? json = some value

section Values

variable (depth : Nat)

theorem gives_natural {limit number : Nat} (small : number < limit)
    (word : number < Text.wordCount) : Gives depth (natural? limit) (.int number) number where
  plain := .number (Numeral.plain_ofInt _)
  proper := Numeral.binary64?_ofInt word
  reads := by
    change (Numeral.ofInt number).natural?.filter (· < limit) = some number
    rw [Numeral.natural?_ofInt, Option.filter_some_pos (by simpa using small)]

theorem gives_word {number : Nat} (word : number < Text.wordCount) :
    Gives depth word? (.int number) number :=
  gives_natural depth word word

theorem gives_signedWord {number : Int} (lower : -2 ^ 63 ≤ number) (upper : number < 2 ^ 63) :
    Gives depth signedWord? (.int number) number where
  plain := .number (Numeral.plain_ofInt _)
  proper := by
    have words : Text.wordCount = 2 ^ 64 := rfl
    exact Numeral.binary64?_ofInt (by omega)
  reads := by
    have power : ((Nat.pow 2 63 : Nat) : Int) = 2 ^ 63 := rfl
    change (Numeral.ofInt number).integer?.filter
      (fun value : Int => -Nat.pow 2 63 ≤ value && value < Nat.pow 2 63) = some number
    rw [Numeral.integer?_ofInt, Option.filter_some_pos]
    simp only [power, Bool.and_eq_true, decide_eq_true_eq]
    exact ⟨lower, upper⟩

theorem gives_binary64 {number : Binary64} (back : number.ReadsBack) :
    Gives depth binary64? (.binary64 number) number := by
  obtain ⟨numeral, written, read⟩ := Option.bind_eq_some_iff.mp back
  rw [binary64, written]
  exact ⟨.number (Numeral.plain_ofBinary64? written), by simp [orNull, isProper, read], read⟩

theorem gives_text (text : String) : Gives depth text? (.text text) text :=
  ⟨.text text, rfl, rfl⟩

theorem gives_needle {needle : Needle} (word : needle.position < Text.wordCount) :
    Gives depth Needle.ofJson? needle.toJson needle where
  plain := .text needle.text
  proper := rfl
  reads := by
    rw [Needle.ofJson?, Needle.toJson, (gives_text depth needle.text).reads, Option.bind_some]
    exact Needle.ofText?_text word

theorem gives_carrier {id : CarrierId} (word : id.number < Text.wordCount) :
    Gives depth CarrierId.ofJson? id.toJson id where
  plain := (gives_word depth word).plain
  proper := (gives_word depth word).proper
  reads := by
    rw [CarrierId.ofJson?, CarrierId.toJson, (gives_word depth word).reads]
    rfl

theorem gives_direction (direction : Option Direction) :
    Gives depth (nullable? Operation.direction?) (.orNull Direction.toJson direction)
      direction := by
  cases direction with
  | none => exact ⟨.null, rfl, rfl⟩
  | some sign => cases sign <;> exact ⟨.text _, rfl, rfl⟩

theorem gives_list {α : Type} {read? : Json → Option α} {encode : α → Json} {values : List α}
    (each : ∀ value ∈ values, Gives depth read? (encode value) value) :
    Gives (depth + 1) (list? read?) (.array (values.map encode)) values := by
  have plain : ∀ json ∈ values.map encode, json.Plain := by
    intro json member
    obtain ⟨value, found, rfl⟩ := List.mem_map.mp member
    exact (each value found).plain
  suffices rest : areProper depth (values.map encode) = true ∧
      (values.map encode).mapM read? = some values from
    ⟨.array plain, by simpa [isProper] using rest.1, rest.2⟩
  clear plain
  induction values with
  | nil => exact ⟨rfl, rfl⟩
  | cons value others ih =>
      rw [List.forall_mem_cons] at each
      obtain ⟨proper, reads⟩ := ih each.2
      simp [areProper, each.1.proper, proper, each.1.reads, reads]

theorem gives_words {numbers : List Nat} (words : ∀ number ∈ numbers, number < Text.wordCount) :
    Gives (depth + 1) (list? word?) (.naturals numbers) numbers :=
  gives_list depth fun number member => gives_word depth (words number member)

theorem gives_carriers {carriers : CarrierSet}
    (words : ∀ carrier ∈ carriers, carrier.number < Text.wordCount) :
    Gives (depth + 1) CarrierSet.ofJson? carriers.toJson carriers :=
  gives_list depth fun carrier member => gives_carrier depth (words carrier member)

end Values

section Records

variable {depth : Nat} {fields : List (String × Json)}

theorem plain_record (each : ∀ field ∈ fields, field.2.Plain) : (record fields).Plain := by
  refine .object (fun member found => ?_) fun member found => ?_
  · obtain ⟨field, _, rfl⟩ := List.mem_map.mp found
    rfl
  · obtain ⟨field, inside, rfl⟩ := List.mem_map.mp found
    exact each field inside

theorem members?_record (fields : List (String × Json)) :
    members? (fields.map fun (key, value) => (some key, value)) = some fields := by
  rw [members?]
  induction fields with
  | nil => rfl
  | cons field others ih => simp [ih]

theorem isProper_record (each : ∀ field ∈ fields, field.2.isProper depth = true) :
    (record fields).isProper (depth + 1) = true := by
  suffices rest :
      membersAreProper depth (fields.map fun (key, value) => (some key, value)) = true by
    simpa [record, isProper] using rest
  induction fields with
  | nil => rfl
  | cons field others ih =>
      rw [List.forall_mem_cons] at each
      simp [membersAreProper, each.1, ih each.2]

/-- The fields of a record are those that are asked for. -/
theorem fields?_record {names : List String} (named : fields.map Prod.fst = names)
    (unique : names.Nodup) : fields? names (record fields) = some ⟨true, fields⟩ := by
  subst named
  have known : (fields.filter fun (key, _) => (fields.map Prod.fst).contains key) = fields := by
    rw [List.filter_eq_self]
    rintro ⟨key, value⟩ member
    exact List.contains_iff_mem.mpr (List.mem_map_of_mem member)
  simp only [fields?, record, members?_record, Option.bind_eq_bind, Option.bind_some, known]
  simp [guard, unique]

end Records

end Json

namespace Operation

open Json (Gives Fields record fields?_record nullable? list?)

def words : Operation → List Nat
  | bringIn carrier | inhook carrier | releasehook carrier | out carrier | outhook carrier =>
      [carrier.number]
  | knit needle carriers _ | tuck needle carriers _ =>
      needle.position :: carriers.map CarrierId.number
  | split start target carriers _ =>
      start.position :: target.position :: carriers.map CarrierId.number
  | drop needle => [needle.position]
  | xfer start target => [start.position, target.position]
  | align front back => [front, back]
  | rack _ | switchDirection | comment _ => []
  | gauge number | sheet number | peel number | reset number => [number]
  | setLayer position layer => [position, layer]
  | pushLayerBackward position _ | pushLayerForward position _ => [position]
  | layerToFront position | layerToBack position => [position]
  | peelSheets sheets | resetSheets sheets => sheets

def signedWords : Operation → List Int
  | pushLayerBackward _ layers | pushLayerForward _ layers => [layers]
  | _ => []

def numbers : Operation → List Binary64
  | rack racking => [racking]
  | _ => []

/-- The arguments of an operation are values of their machine types, and its numbers are read back
from their numerals. -/
structure Fits (operation : Operation) : Prop where
  words : ∀ word ∈ operation.words, word < Text.wordCount
  signedWords : ∀ number ∈ operation.signedWords, -2 ^ 63 ≤ number ∧ number < 2 ^ 63
  numbers : ∀ number ∈ operation.numbers, number.ReadsBack

section Fields

variable {α β : Type} {depth : Nat}

theorem one?_record {name : String} {read? : Json → Option α} {json : Json} {value : α}
    (gives : Gives depth read? json value) (make : α → Operation) :
    one? (record [(name, json)]) name read? make = some (make value) := by
  have fields : Json.fields? [name] (record [(name, json)]) = some ⟨true, _⟩ :=
    fields?_record rfl (by simp)
  simp [one?, fields, Fields.required?, gives.reads]

theorem two?_record {first second : String} (differ : second ≠ first)
    {readFirst? : Json → Option α} {readSecond? : Json → Option β} {firstJson secondJson : Json}
    {firstValue : α} {secondValue : β} (gives : Gives depth readFirst? firstJson firstValue)
    (givesSecond : Gives depth readSecond? secondJson secondValue) (make : α → β → Operation) :
    two? (record [(first, firstJson), (second, secondJson)]) first readFirst? second readSecond?
      make = some (make firstValue secondValue) := by
  have fields : Json.fields? [first, second] (record [(first, firstJson), (second, secondJson)]) =
      some ⟨true, _⟩ := fields?_record rfl (by simp [differ.symm])
  have later : (second == first) = false := by simpa using differ
  simp [two?, fields, Fields.required?, gives.reads, givesSecond.reads, List.lookup_cons, later]

section Making

variable {needle target : Needle} {carriers : CarrierSet} {direction : Option Direction}
  {needleJson targetJson carriersJson directionJson : Json}
  (givesNeedle : Gives depth Needle.ofJson? needleJson needle)
  (givesTarget : Gives depth Needle.ofJson? targetJson target)
  (givesCarriers : Gives depth CarrierSet.ofJson? carriersJson carriers)
  (givesDirection : Gives depth (nullable? direction?) directionJson direction)

include givesNeedle givesCarriers givesDirection

theorem making?_record (make : Needle → CarrierSet → Option Direction → Operation) :
    making? (record [("needle", needleJson), ("carriers", carriersJson),
      ("direction", directionJson)]) make = some (make needle carriers direction) := by
  have fields : Json.fields? ["needle", "carriers", "direction"]
      (record [("needle", needleJson), ("carriers", carriersJson),
        ("direction", directionJson)]) = some ⟨true, _⟩ := fields?_record rfl (by simp)
  simp [making?, fields, Fields.required?, Fields.defaulted?, List.lookup_cons, givesNeedle.reads,
    givesCarriers.reads, givesDirection.reads]

include givesTarget

theorem split?_record :
    split? (record [("start", needleJson), ("target", targetJson), ("carriers", carriersJson),
      ("direction", directionJson)]) = some (split needle target carriers direction) := by
  have fields : Json.fields? ["start", "target", "carriers", "direction"]
      (record [("start", needleJson), ("target", targetJson), ("carriers", carriersJson),
        ("direction", directionJson)]) = some ⟨true, _⟩ := fields?_record rfl (by simp)
  simp [split?, fields, Fields.required?, Fields.defaulted?, List.lookup_cons, givesNeedle.reads,
    givesTarget.reads, givesCarriers.reads, givesDirection.reads]

end Making

end Fields

structure Written (operation : Operation) : Prop where
  plain : ∀ field ∈ operation.parts.2, field.2.Plain
  proper : ∀ field ∈ operation.parts.2, field.2.isProper (Json.maxNesting - 3) = true
  reads : ofParts? operation.parts.1 (record operation.parts.2) = some operation

section Written

variable {α β : Type} {operation : Operation}

theorem written_one {name field : String} {read? : Json → Option α} {json : Json} {value : α}
    {make : α → Operation} (made : operation = make value)
    (parts : operation.parts = (name, [(field, json)]))
    (reader : ∀ content, ofParts? name content = one? content field read? make)
    (gives : Gives (Json.maxNesting - 3) read? json value) : operation.Written := by
  refine ⟨?_, ?_, ?_⟩
  · rw [parts]
    exact List.forall_mem_singleton.mpr gives.plain
  · rw [parts]
    exact List.forall_mem_singleton.mpr gives.proper
  · rw [parts, reader, one?_record gives, made]

theorem written_two {name first second : String} {readFirst? : Json → Option α}
    {readSecond? : Json → Option β} {firstJson secondJson : Json} {firstValue : α}
    {secondValue : β} {make : α → β → Operation} (made : operation = make firstValue secondValue)
    (parts : operation.parts = (name, [(first, firstJson), (second, secondJson)]))
    (differ : second ≠ first)
    (reader : ∀ content, ofParts? name content =
      two? content first readFirst? second readSecond? make)
    (gives : Gives (Json.maxNesting - 3) readFirst? firstJson firstValue)
    (givesSecond : Gives (Json.maxNesting - 3) readSecond? secondJson secondValue) :
    operation.Written := by
  refine ⟨?_, ?_, ?_⟩
  · rw [parts]
    exact List.forall_mem_cons.mpr ⟨gives.plain, List.forall_mem_singleton.mpr givesSecond.plain⟩
  · rw [parts]
    exact List.forall_mem_cons.mpr ⟨gives.proper, List.forall_mem_singleton.mpr givesSecond.proper⟩
  · rw [parts, reader, two?_record differ gives givesSecond, made]

end Written

theorem written_making {name : String} {needle : Needle} {carriers : CarrierSet}
    {direction : Option Direction} {make : Needle → CarrierSet → Option Direction → Operation}
    (parts : (make needle carriers direction).parts = (name, [("needle", needle.toJson),
      ("carriers", CarrierSet.toJson carriers),
      ("direction", .orNull Direction.toJson direction)]))
    (reader : ∀ content, ofParts? name content = making? content make)
    (words : ∀ word ∈ needle.position :: carriers.map CarrierId.number, word < Text.wordCount) :
    (make needle carriers direction).Written := by
  rw [List.forall_mem_cons, List.forall_mem_map] at words
  -- Operations stand in the list of a program, and carriers in a list of an operation.
  have gives := Json.gives_needle (Json.maxNesting - 3) words.1
  have givesCarriers := Json.gives_carriers (Json.maxNesting - 4) words.2
  have givesDirection := Json.gives_direction (Json.maxNesting - 3) direction
  refine ⟨?_, ?_, ?_⟩
  · rw [parts]
    simp only [List.forall_mem_cons]
    exact ⟨gives.plain, givesCarriers.plain, givesDirection.plain, List.forall_mem_nil _⟩
  · rw [parts]
    simp only [List.forall_mem_cons]
    exact ⟨gives.proper, givesCarriers.proper, givesDirection.proper, List.forall_mem_nil _⟩
  · rw [parts, reader, making?_record gives givesCarriers givesDirection]

theorem written_split {start target : Needle} {carriers : CarrierSet}
    {direction : Option Direction}
    (words : ∀ word ∈ start.position :: target.position :: carriers.map CarrierId.number,
      word < Text.wordCount) : (split start target carriers direction).Written := by
  rw [List.forall_mem_cons, List.forall_mem_cons, List.forall_mem_map] at words
  have gives := Json.gives_needle (Json.maxNesting - 3) words.1
  have givesTarget := Json.gives_needle (Json.maxNesting - 3) words.2.1
  have givesCarriers := Json.gives_carriers (Json.maxNesting - 4) words.2.2
  have givesDirection := Json.gives_direction (Json.maxNesting - 3) direction
  refine ⟨?_, ?_, split?_record gives givesTarget givesCarriers givesDirection⟩
  · simp only [parts, List.forall_mem_cons]
    exact ⟨gives.plain, givesTarget.plain, givesCarriers.plain, givesDirection.plain,
      List.forall_mem_nil _⟩
  · simp only [parts, List.forall_mem_cons]
    exact ⟨gives.proper, givesTarget.proper, givesCarriers.proper, givesDirection.proper,
      List.forall_mem_nil _⟩

/-- An operation is written as fields that are read as the operation. -/
theorem Fits.written {operation : Operation} (fits : operation.Fits) : operation.Written := by
  have here : ∀ number : Nat, number ∈ [number] := fun _ => List.mem_singleton_self _
  obtain ⟨words, signedWords, numbers⟩ := fits
  cases operation with
  | bringIn carrier =>
      exact written_one rfl rfl (fun _ => rfl) (Json.gives_carrier _ (words _ (here _)))
  | inhook carrier =>
      exact written_one rfl rfl (fun _ => rfl) (Json.gives_carrier _ (words _ (here _)))
  | releasehook carrier =>
      exact written_one rfl rfl (fun _ => rfl) (Json.gives_carrier _ (words _ (here _)))
  | out carrier =>
      exact written_one rfl rfl (fun _ => rfl) (Json.gives_carrier _ (words _ (here _)))
  | outhook carrier =>
      exact written_one rfl rfl (fun _ => rfl) (Json.gives_carrier _ (words _ (here _)))
  | knit needle carriers direction => exact written_making rfl (fun _ => rfl) words
  | tuck needle carriers direction => exact written_making rfl (fun _ => rfl) words
  | split start target carriers direction => exact written_split words
  | drop needle =>
      exact written_one rfl rfl (fun _ => rfl) (Json.gives_needle _ (words _ (here _)))
  | xfer start target =>
      obtain ⟨first, second⟩ := List.forall_mem_cons.mp words
      exact written_two rfl rfl (by decide) (fun _ => rfl) (Json.gives_needle _ first)
        (Json.gives_needle _ (second _ (here _)))
  | align front back =>
      obtain ⟨first, second⟩ := List.forall_mem_cons.mp words
      exact written_two rfl rfl (by decide) (fun _ => rfl) (Json.gives_word _ first)
        (Json.gives_word _ (second _ (here _)))
  | rack racking =>
      exact written_one rfl rfl (fun _ => rfl)
        (Json.gives_binary64 _ (numbers _ (List.mem_singleton_self _)))
  | switchDirection => exact ⟨by simp [parts], by simp [parts], rfl⟩
  | gauge number =>
      exact written_one rfl rfl (fun _ => rfl) (Json.gives_word _ (words _ (here _)))
  | sheet number =>
      exact written_one rfl rfl (fun _ => rfl) (Json.gives_word _ (words _ (here _)))
  | setLayer position layer =>
      obtain ⟨first, second⟩ := List.forall_mem_cons.mp words
      exact written_two rfl rfl (by decide) (fun _ => rfl) (Json.gives_word _ first)
        (Json.gives_word _ (second _ (here _)))
  | pushLayerBackward position layers =>
      obtain ⟨lower, upper⟩ := signedWords _ (List.mem_singleton_self _)
      exact written_two rfl rfl (by decide) (fun _ => rfl) (Json.gives_word _ (words _ (here _)))
        (Json.gives_signedWord _ lower upper)
  | pushLayerForward position layers =>
      obtain ⟨lower, upper⟩ := signedWords _ (List.mem_singleton_self _)
      exact written_two rfl rfl (by decide) (fun _ => rfl) (Json.gives_word _ (words _ (here _)))
        (Json.gives_signedWord _ lower upper)
  | layerToFront position =>
      exact written_one rfl rfl (fun _ => rfl) (Json.gives_word _ (words _ (here _)))
  | layerToBack position =>
      exact written_one rfl rfl (fun _ => rfl) (Json.gives_word _ (words _ (here _)))
  | peel number =>
      exact written_one rfl rfl (fun _ => rfl) (Json.gives_word _ (words _ (here _)))
  | peelSheets sheets =>
      exact written_one rfl rfl (fun _ => rfl) (Json.gives_words (Json.maxNesting - 4) words)
  | reset number =>
      exact written_one rfl rfl (fun _ => rfl) (Json.gives_word _ (words _ (here _)))
  | resetSheets sheets =>
      exact written_one rfl rfl (fun _ => rfl) (Json.gives_words (Json.maxNesting - 4) words)
  | comment text => exact written_one rfl rfl (fun _ => rfl) (Json.gives_text _ text)

theorem parts_untagged (operation : Operation) : ∀ field ∈ operation.parts.2, field.1 ≠ "op" := by
  cases operation <;> simp [parts]

/-- The tag of an operation is found among its members, and the fields are the others. -/
theorem ofJson?_record {around : Nat} {name : String} {fields : List (String × Json)}
    (proper : (record (("op", .text name) :: fields)).isProper (Json.maxNesting - around) = true)
    (untagged : ∀ field ∈ fields, field.1 ≠ "op") :
    ofJson? around (record (("op", .text name) :: fields)) = ofParts? name (record fields) := by
  have others : ∀ member ∈ fields.map (fun (key, value) => ((some key, value) : Json.Member)),
      isTag member = false := by
    intro member found
    obtain ⟨field, inside, rfl⟩ := List.mem_map.mp found
    simpa [isTag] using untagged field inside
  have tagged : isTag (some "op", .text name) = true := rfl
  have tags : ((some "op", .text name) :: fields.map
      fun (key, value) => ((some key, value) : Json.Member)).filter isTag =
        [(some "op", .text name)] := by
    rw [List.filter_cons_of_pos tagged, List.filter_eq_nil_iff.mpr]
    intro member found
    simp [others member found]
  have rest : ((some "op", .text name) :: fields.map
      fun (key, value) => ((some key, value) : Json.Member)).filter (!isTag ·) =
        fields.map fun (key, value) => (some key, value) := by
    rw [List.filter_cons_of_neg (by simp [tagged]), List.filter_eq_self]
    intro member found
    simp [others member found]
  rw [record, List.map_cons] at proper ⊢
  rw [ofJson?, proper]
  simp only [tags, rest, record]
  rfl

theorem gives_toJson {operation : Operation} (fits : operation.Fits) :
    Gives (Json.maxNesting - 2) (ofJson? 2) operation.toJson operation := by
  have written := fits.written
  have plain : ∀ field ∈ ("op", Json.text operation.parts.1) :: operation.parts.2,
      field.2.Plain := List.forall_mem_cons.mpr ⟨.text _, written.plain⟩
  have proper : ∀ field ∈ ("op", Json.text operation.parts.1) :: operation.parts.2,
      field.2.isProper (Json.maxNesting - 3) = true :=
    List.forall_mem_cons.mpr ⟨rfl, written.proper⟩
  have nested : operation.toJson.isProper (Json.maxNesting - 2) = true :=
    Json.isProper_record proper
  refine ⟨Json.plain_record plain, nested, ?_⟩
  rw [toJson, ofJson?_record nested operation.parts_untagged, written.reads]

end Operation

namespace Spec

structure Fits (spec : Spec) : Prop where
  needleCount : spec.needleCount < Text.wordCount
  maxRack : spec.maxRack.ReadsBack
  carrierCount : spec.carrierCount < Text.wordCount
  hookSize : spec.hookSize < Text.wordCount

open Json (Gives Fields record fields?_record)

theorem Fits.gives {spec : Spec} (fits : spec.Fits) (depth : Nat) :
    Gives (depth + 1) (Json.nullable? ofJson?) spec.toJson (some spec) := by
  have needles := Json.gives_word depth fits.needleCount
  have rack := Json.gives_binary64 depth fits.maxRack
  have carriers := Json.gives_word depth fits.carrierCount
  have hook := Json.gives_word depth fits.hookSize
  refine ⟨Json.plain_record ?_, Json.isProper_record ?_, ?_⟩
  · simp only [List.forall_mem_cons]
    exact ⟨needles.plain, rack.plain, carriers.plain, hook.plain, List.forall_mem_nil _⟩
  · simp only [List.forall_mem_cons]
    exact ⟨needles.proper, rack.proper, carriers.proper, hook.proper, List.forall_mem_nil _⟩
  · have fields : spec.toJson.fields? ["needle_count", "max_rack", "carrier_count", "hook_size"] =
        some ⟨true, _⟩ := fields?_record rfl (by simp)
    have reads : ofJson? spec.toJson = some spec := by
      simp [ofJson?, fields, Fields.defaulted?, List.lookup_cons, needles.reads, rack.reads,
        carriers.reads, hook.reads]
    exact congrArg (Option.map some) reads

end Spec

namespace Program

structure Fits (program : Program) : Prop where
  machine : ∀ spec ∈ program.machine, spec.Fits
  operations : ∀ operation ∈ program.operations, operation.Fits

variable {program : Program}

def words (program : Program) : List Nat :=
  (program.machine.toList.flatMap fun spec =>
    [spec.needleCount, spec.carrierCount, spec.hookSize]) ++ program.operations.flatMap (·.words)

def signedWords (program : Program) : List Int :=
  program.operations.flatMap (·.signedWords)

def numbers (program : Program) : List Binary64 :=
  program.machine.toList.map Spec.maxRack ++ program.operations.flatMap (·.numbers)

/-- Every value is of its machine type when the words are machine words and each number has a short
numeral. -/
theorem fits_of_short (words : ∀ word ∈ program.words, word < Text.wordCount)
    (signedWords : ∀ number ∈ program.signedWords, -2 ^ 63 ≤ number ∧ number < 2 ^ 63)
    (short : ∀ number ∈ program.numbers, number.IsShort) : program.Fits where
  machine spec given := by
    have there : spec ∈ program.machine.toList := Option.mem_toList.mpr given
    have measures : ∀ word ∈ [spec.needleCount, spec.carrierCount, spec.hookSize],
        word < Text.wordCount := fun word member =>
      words word (List.mem_append_left _ (List.mem_flatMap.mpr ⟨spec, there, member⟩))
    have rack := short spec.maxRack (List.mem_append_left _ (List.mem_map_of_mem there))
    simp only [List.forall_mem_cons] at measures
    obtain ⟨needles, carriers, hook, _⟩ := measures
    exact ⟨needles, rack.readsBack, carriers, hook⟩
  operations operation member := by
    refine ⟨fun word inside => ?_, fun number inside => ?_, fun number inside => ?_⟩
    · exact words word (List.mem_append_right _ (List.mem_flatMap.mpr ⟨operation, member, inside⟩))
    · exact signedWords number (List.mem_flatMap.mpr ⟨operation, member, inside⟩)
    · refine (short number (List.mem_append_right _ ?_)).readsBack
      exact List.mem_flatMap.mpr ⟨operation, member, inside⟩

open Json (Gives Fields record fields?_record)

theorem Fits.gives (fits : program.Fits) :
    Gives Json.maxNesting ofJson? program.toJson program := by
  have machine : Gives (Json.maxNesting - 1) (Json.nullable? Spec.ofJson?)
      (.orNull Spec.toJson program.machine) program.machine := by
    cases given : program.machine with
    | none => exact ⟨.null, rfl, rfl⟩
    | some spec => exact (fits.machine spec given).gives (Json.maxNesting - 2)
  have operations := Json.gives_list (Json.maxNesting - 2)
    fun operation member => Operation.gives_toJson (fits.operations operation member)
  refine ⟨Json.plain_record ?_, @Json.isProper_record (Json.maxNesting - 1) _ ?_, ?_⟩
  · simp only [List.forall_mem_cons]
    exact ⟨machine.plain, operations.plain, List.forall_mem_nil _⟩
  · simp only [List.forall_mem_cons]
    exact ⟨machine.proper, operations.proper, List.forall_mem_nil _⟩
  · have fields : program.toJson.fields? ["machine", "operations"] = some ⟨true, _⟩ :=
      fields?_record rfl (by simp)
    simp [ofJson?, fields, Fields.defaulted?, Fields.required?, List.lookup_cons, machine.reads,
      operations.reads]

/-- A program is read back from its text. -/
theorem ofText_render {program : Program} (fits : program.Fits) :
    ofText program.toJson.render = .ok program := by
  rw [ofText, Json.readText, fits.gives.plain.ofText?_render, Option.bind_some, fits.gives.reads]

theorem ofText_render_mixed :
    let text := "a quote \", a backslash \\, a line end \n, a bell \x07, é and 𝄞"
    let program : Program := ⟨some .standard, [.bringIn ⟨1⟩, .inhook ⟨18446744073709551615⟩,
      .knit (.front 3) [] none, .split (.back 0) ⟨.front, 7, true⟩ [⟨1⟩, ⟨1⟩] (some .rightToLeft),
      .rack (.ofNat 3), .pushLayerForward 1 (-9223372036854775808), .peelSheets [1, 0],
      .switchDirection, .comment text]⟩
    program.Fits ∧ ofText program.toJson.render = .ok program := by
  intro text program
  have fits : program.Fits := fits_of_short (by decide) (by decide) (by decide +kernel)
  exact ⟨fits, ofText_render fits⟩

end Program

end VBed
