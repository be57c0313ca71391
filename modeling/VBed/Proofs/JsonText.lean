import Mathlib.Data.List.TakeDrop
import Mathlib.Data.Option.Basic
import VBed.Json.Reader
import VBed.Json.Writer
import VBed.Proofs.Shortest

/-!
Writing JSON and reading it back. A plain value has numerals that are written as JSON writes them
and strings that are texts. Reading its characters builds the value on top of whatever surrounds
it; a numeral or a word at its end is still open, and is settled by the character that comes next.
-/

namespace VBed.Json

namespace Numeral

structure Plain (numeral : Numeral) : Prop where
  whole : numeral.whole ≠ []
  wholeDigits : ∀ character ∈ numeral.whole, character.isDigit = true
  wholeStart : wholeIsPlain numeral.whole = true
  fractionDigits : ∀ character ∈ numeral.fraction, character.isDigit = true
  exponent : ∀ part ∈ numeral.exponent, part.2 ≠ []
  exponentDigits : ∀ part ∈ numeral.exponent, ∀ character ∈ part.2, character.isDigit = true

/-- The digits at the start of a text end where no digit follows. -/
theorem someDigits?_append {run rest : List Char} (some_ : run ≠ [])
    (inRun : ∀ character ∈ run, character.isDigit = true)
    (stops : ∀ character ∈ rest.head?, character.isDigit = false) :
    someDigits? (run ++ rest) = some (run, rest) := by
  have ended : rest.takeWhile Char.isDigit = [] ∧ rest.dropWhile Char.isDigit = rest := by
    cases rest with
    | nil => simp
    | cons first others =>
        have other := stops first rfl
        simp [other]
  have spanned : digits (run ++ rest) = (run, rest) := by
    rw [digits, List.span_eq_takeWhile_dropWhile, List.takeWhile_append_of_pos inRun,
      List.dropWhile_append_of_pos inRun, ended.1, ended.2, List.append_nil]
  rw [someDigits?, spanned]
  simp [some_]

theorem exponentChars_head (exponent : Option (Bool × List Char)) :
    ∀ character ∈ (exponentChars exponent).head?, character = 'e' := by
  cases exponent with
  | none => simp [exponentChars]
  | some part => simp [exponentChars]

theorem exponent?_exponentChars {exponent : Option (Bool × List Char)}
    (some_ : ∀ part ∈ exponent, part.2 ≠ [])
    (digits : ∀ part ∈ exponent, ∀ character ∈ part.2, character.isDigit = true) :
    exponent? (exponentChars exponent) = some exponent := by
  cases exponent with
  | none => rfl
  | some part =>
      obtain ⟨negative, run⟩ := part
      have filled : run ≠ [] := some_ _ rfl
      have all : run.all Char.isDigit = true := List.all_eq_true.mpr (digits _ rfl)
      cases negative <;> simp [exponentChars, exponent?, exponentSign, filled, all]

theorem fraction?_append {fraction rest : List Char}
    (digits : ∀ character ∈ fraction, character.isDigit = true)
    (stops : ∀ character ∈ rest.head?, character = 'e') :
    fraction? (fractionChars fraction ++ rest) = some (fraction, rest) := by
  have ended : ∀ character ∈ rest.head?, character.isDigit = false := by
    intro character member
    rw [stops character member]
    decide
  cases fraction with
  | nil =>
      rw [fractionChars, List.isEmpty_nil, if_pos rfl, List.nil_append]
      cases rest with
      | nil => rfl
      | cons first others =>
          rw [stops first rfl]
          rfl
  | cons first others => exact someDigits?_append (by simp) digits ended

theorem Plain.unsigned?_append {numeral : Numeral} (plain : numeral.Plain) :
    unsigned? numeral.negative (numeral.whole ++ (fractionChars numeral.fraction ++
      exponentChars numeral.exponent)) = some numeral := by
  have stops : ∀ character ∈ (fractionChars numeral.fraction ++
      exponentChars numeral.exponent).head?, character.isDigit = false := by
    cases numeral.fraction with
    | nil =>
        intro character member
        rw [exponentChars_head _ character member]
        decide
    | cons first others => simp [fractionChars]
  simp [unsigned?, someDigits?_append plain.whole plain.wholeDigits stops, plain.wholeStart, guard,
    fraction?_append plain.fractionDigits (exponentChars_head _),
    exponent?_exponentChars plain.exponent plain.exponentDigits]

theorem Plain.ofChars?_chars {numeral : Numeral} (plain : numeral.Plain) :
    ofChars? numeral.chars = some numeral := by
  have read := plain.unsigned?_append
  rw [chars, List.append_assoc, List.append_assoc]
  cases sign : numeral.negative with
  | true =>
      rw [sign] at read
      exact read
  | false =>
      rw [sign] at read
      rw [signChars, if_neg Bool.false_ne_true, List.nil_append, ofChars?]
      · exact read
      · intro rest signed
        cases whole : numeral.whole with
        | nil => exact plain.whole whole
        | cons first others =>
            have digit := plain.wholeDigits first (by simp [whole])
            rw [whole, List.cons_append] at signed
            rw [(List.cons.inj signed).1] at digit
            exact absurd digit (by decide)

theorem Plain.isNumeric {numeral : Numeral} (plain : numeral.Plain) :
    ∀ character ∈ numeral.chars, Token.isNumeric character = true := by
  have digit : ∀ {character : Char}, character.isDigit = true →
      Token.isNumeric character = true := by
    intro character digit
    simp [Token.isNumeric, digit]
  intro character member
  simp only [chars, List.mem_append] at member
  rcases member with ((sign | whole) | fraction) | exponent
  · cases negative : numeral.negative <;> simp_all [signChars]
    decide
  · exact digit (plain.wholeDigits character whole)
  · rw [fractionChars] at fraction
    split at fraction
    · simp at fraction
    · rcases List.mem_cons.mp fraction with rfl | inFraction
      · decide
      · exact digit (plain.fractionDigits character inFraction)
  · cases part : numeral.exponent with
    | none => simp [part, exponentChars] at exponent
    | some power =>
        rw [part, exponentChars] at exponent
        rcases List.mem_cons.mp exponent with rfl | later
        · decide
        · rcases List.mem_cons.mp later with sign | inPower
          · rw [sign]
            cases power.1 <;> decide
          · exact digit (plain.exponentDigits power part character inPower)

theorem Plain.chars_ne_nil {numeral : Numeral} (plain : numeral.Plain) : numeral.chars ≠ [] := by
  simp [chars, plain.whole]

end Numeral

def Progress.readAll (progress : Progress) (characters : List Char) : Option Progress :=
  characters.foldlM Progress.read progress

namespace Progress

theorem readAll_append (progress : Progress) (first second : List Char) :
    progress.readAll (first ++ second) = (progress.readAll first).bind (·.readAll second) :=
  List.foldlM_append

theorem readAll_cons (progress : Progress) (character : Char) (rest : List Char) :
    progress.readAll (character :: rest) = (progress.read character).bind (·.readAll rest) :=
  List.foldlM_cons

theorem readAll_nil (progress : Progress) : progress.readAll [] = some progress := rfl

/-- Reading goes on after characters that have been read. -/
theorem readAll_then {progress next : Progress} {first : List Char}
    (read : progress.readAll first = some next) (second : List Char) :
    progress.readAll (first ++ second) = next.readAll second := by
  rw [readAll_append, read, Option.bind_some]

/-- A character that completes no token leaves the assembly alone. -/
theorem readAll_open {reading next : Reading} {character : Char} (assembly : Assembly)
    (rest : List Char) (reads : Token.read reading character = some (next, [])) :
    readAll ⟨reading, assembly⟩ (character :: rest) = readAll ⟨next, assembly⟩ rest := by
  have opened : read ⟨reading, assembly⟩ character = some ⟨next, assembly⟩ := by
    simp [read, reads]
  rw [readAll_cons, opened, Option.bind_some]

/-- A character that completes one token adds it to the assembly. -/
theorem read_token {reading next : Reading} {character : Char} {token : Token}
    (assembly : Assembly) (reads : Token.read reading character = some (next, [token])) :
    Progress.read ⟨reading, assembly⟩ character =
      (assembly.take token).map (⟨next, ·⟩) := by
  cases taken : assembly.take token <;> simp [Progress.read, reads, taken]

end Progress

section Strings

def unitsOf (characters : List Char) : List Nat :=
  (characters.map Char.toNat).reverse

theorem isHighHalf_toNat (character : Char) : Token.isHighHalf character.toNat = false := by
  have valid : character.toNat.isValidChar := character.valid
  simp only [Token.isHighHalf, Bool.and_eq_false_iff, decide_eq_false_iff_not]
  rcases valid with low | ⟨high, _⟩ <;> omega

/-- A whole character is not a half, so it is never joined to what comes behind it. -/
theorem pushUnit_unitsOf (unit : Nat) (before : List Char) :
    Token.pushUnit unit (unitsOf before) = unit :: unitsOf before := by
  cases units : unitsOf before with
  | nil => rfl
  | cons last rest =>
      have member : last ∈ unitsOf before := by simp [units]
      simp only [unitsOf, List.mem_reverse, List.mem_map] at member
      obtain ⟨character, _, same⟩ := member
      simp [Token.pushUnit, ← same, isHighHalf_toNat]

theorem unitChar?_toNat (character : Char) :
    Token.unitChar? character.toNat = some character := by
  have valid : character.toNat.isValidChar := character.valid
  rw [Token.unitChar?, dif_pos valid]
  rfl

theorem unitsText?_unitsOf (characters : List Char) :
    Token.unitsText? (unitsOf characters).reverse = some (String.ofList characters) := by
  have all : (characters.map Char.toNat).mapM Token.unitChar? = some characters := by
    induction characters with
    | nil => rfl
    | cons first rest ih => simp [unitChar?_toNat, ih]
  simp [Token.unitsText?, unitsOf, all]

theorem hexValue?_hexChars {unit : Nat} (control : unit < 0x20) :
    Token.hexValue? (hexChars unit) = some unit := by
  have all : ∀ unit < 0x20, Token.hexValue? (hexChars unit) = some unit := by decide +kernel
  exact all unit control

theorem unitsOf_concat (before : List Char) (character : Char) :
    unitsOf (before ++ [character]) = character.toNat :: unitsOf before := by
  simp [unitsOf]

section Escapes

variable (before : List Char) (assembly : Assembly)

theorem readAll_shortEscape {letter : Char} {unit : Nat}
    (short : Token.shortEscape? letter = some unit) (other : letter ≠ 'u') :
    Progress.readAll ⟨.string (unitsOf before), assembly⟩ ['\\', letter] =
      some ⟨.string (unit :: unitsOf before), assembly⟩ := by
  have start : Token.read (.string (unitsOf before)) '\\' =
      some (.escape (unitsOf before), []) := rfl
  have ends : Token.read (.escape (unitsOf before)) letter =
      some (.string (unit :: unitsOf before), []) := by
    simp [Token.read, Token.readEscape, other, short, pushUnit_unitsOf]
  rw [Progress.readAll_open assembly _ start, Progress.readAll_open assembly _ ends,
    Progress.readAll_nil]

theorem readAll_hexEscape {unit : Nat} (control : unit < 0x20) :
    Progress.readAll ⟨.string (unitsOf before), assembly⟩ ('\\' :: 'u' :: hexChars unit) =
      some ⟨.string (unit :: unitsOf before), assembly⟩ := by
  have start : Token.read (.string (unitsOf before)) '\\' =
      some (.escape (unitsOf before), []) := rfl
  have mark : Token.read (.escape (unitsOf before)) 'u' = some (.hex (unitsOf before) [], []) := rfl
  have digit : ∀ digits character, digits.length < 3 →
      Token.read (.hex (unitsOf before) digits) character =
        some (.hex (unitsOf before) (digits ++ [character]), []) := by
    intro digits character few
    simp [Token.read, Token.readHex, show digits.length + 1 < 4 by omega]
  have value := hexValue?_hexChars control
  simp only [hexChars, List.map_cons, List.map_nil] at value ⊢
  rw [Progress.readAll_open assembly _ start, Progress.readAll_open assembly _ mark,
    Progress.readAll_open assembly _ (digit [] _ (by decide)),
    Progress.readAll_open assembly _ (digit ([] ++ [_]) _ (by simp)),
    Progress.readAll_open assembly _ (digit ([] ++ [_] ++ [_]) _ (by simp))]
  refine Progress.readAll_open assembly [] ?_
  simp [Token.read, Token.readHex, value, pushUnit_unitsOf]

/-- The escape of a character reads as the character. -/
theorem readAll_escape (character : Char) :
    Progress.readAll ⟨.string (unitsOf before), assembly⟩ (escape character) =
      some ⟨.string (unitsOf (before ++ [character])), assembly⟩ := by
  rw [unitsOf_concat]
  unfold escape
  -- Five short escapes, two more that are told by their units, a control character, a plain one.
  split
  · exact readAll_shortEscape before assembly rfl (by decide)
  · exact readAll_shortEscape before assembly rfl (by decide)
  · exact readAll_shortEscape before assembly rfl (by decide)
  · exact readAll_shortEscape before assembly rfl (by decide)
  · exact readAll_shortEscape before assembly rfl (by decide)
  · rename_i quote backslash _ _ _
    split
    · rename_i backspace
      rw [backspace]
      exact readAll_shortEscape before assembly rfl (by decide)
    · split
      · rename_i feed
        rw [feed]
        exact readAll_shortEscape before assembly rfl (by decide)
      · split
        · rename_i control
          exact readAll_hexEscape before assembly control
        · rename_i visible
          refine Progress.readAll_open assembly [] ?_
          have plain : character ≠ '"' ∧ character ≠ '\\' := ⟨quote, backslash⟩
          simp [Token.read, Token.readInString, plain, visible, pushUnit_unitsOf]

theorem readAll_escaped (text : List Char) :
    Progress.readAll ⟨.string (unitsOf before), assembly⟩ (text.flatMap escape) =
      some ⟨.string (unitsOf (before ++ text)), assembly⟩ := by
  induction text generalizing before with
  | nil => simp [Progress.readAll_nil]
  | cons first rest ih =>
      rw [List.flatMap_cons, Progress.readAll_then (readAll_escape before assembly first), ih,
        List.append_assoc, List.singleton_append]

end Escapes

/-- The characters of a text are read as one token. -/
theorem readAll_stringChars (text : String) (assembly : Assembly) :
    Progress.readAll ⟨.between, assembly⟩ (stringChars (some text)) =
      (assembly.take (.string (some text))).map (⟨.between, ·⟩) := by
  have ends : Token.read (.string (unitsOf text.toList)) '"' =
      some (.between, [.string (some text)]) := by
    simp [Token.read, Token.readInString, unitsText?_unitsOf]
  have start : Token.read .between '"' = some (.string (unitsOf []), []) := rfl
  rw [stringChars, List.cons_append, Progress.readAll_open assembly _ start,
    Progress.readAll_then (readAll_escaped [] assembly text.toList), List.nil_append,
    Progress.readAll_cons, Progress.read_token assembly ends]
  cases assembly.take (.string (some text)) <;> rfl

end Strings

section Tokens

theorem start_punctuation {character : Char} {token : Token}
    (mark : Token.punctuation? character = some token) :
    Token.start character = some (.between, [token]) ∧ character.isLower = false ∧
      Token.isNumeric character = false := by
  unfold Token.punctuation? at mark
  split at mark <;> cases mark <;> exact ⟨rfl, rfl, rfl⟩

theorem start_numeric {character : Char} (numeric : Token.isNumeric character = true) :
    Token.start character = some (.number [character], []) := by
  have spaced : Token.isSpace character = false := by
    by_contra space
    simp only [Token.isSpace, Bool.not_eq_false, Bool.or_eq_true, beq_iff_eq] at space
    rcases space with ((rfl | rfl) | rfl) | rfl <;> exact absurd numeric (by decide)
  have quoted : character ≠ '"' := by
    rintro rfl
    exact absurd numeric (by decide)
  simp [Token.start, spaced, quoted, numeric]

/-- What has been read builds an assembly, once a token that is still open at its end is closed
by a punctuation mark or by the end of the text. -/
structure Progress.Settles (progress : Progress) (assembly : Assembly) : Prop where
  finish : progress.finish = assembly.value?
  close : ∀ character token, Token.punctuation? character = some token →
    progress.read character = (assembly.take token).map (⟨.between, ·⟩)

theorem settles_between (assembly : Assembly) :
    Progress.Settles ⟨.between, assembly⟩ assembly := by
  constructor
  · simp [Progress.finish, Token.finish]
  · intro character token mark
    exact Progress.read_token assembly (start_punctuation mark).1

theorem settles_open {reading : Reading} {assembly next : Assembly} {token : Token}
    (ends : Token.finish reading = some [token]) (taken : assembly.take token = some next)
    (restarts : ∀ character mark, Token.punctuation? character = some mark →
      Token.read reading character = Token.restart reading character) :
    Progress.Settles ⟨reading, assembly⟩ next := by
  constructor
  · simp [Progress.finish, ends, taken]
  · intro character mark punctuation
    have reads : Token.read reading character = some (.between, [token, mark]) := by
      rw [restarts character mark punctuation, Token.restart, ends,
        (start_punctuation punctuation).1]
      rfl
    cases after : next.take mark <;> simp [Progress.read, reads, taken, after]

def Reads (json : Json) : Prop :=
  ∀ frames, ∃ progress, Progress.readAll ⟨.between, ⟨frames, .value⟩⟩ json.chars = some progress ∧
    progress.Settles ⟨frames, .done json⟩

theorem reads_word {json : Json} {letters : List Char} {token : Token} (word : json.chars = letters)
    (opened : ∀ assembly, Progress.readAll ⟨.between, assembly⟩ letters =
      some ⟨.word letters.reverse, assembly⟩)
    (ends : Token.finish (.word letters.reverse) = some [token])
    (taken : ∀ frames, Assembly.take ⟨frames, .value⟩ token = some ⟨frames, .done json⟩) :
    Reads json := by
  intro frames
  refine ⟨_, (congrArg _ word).trans (opened _), settles_open ends (taken frames) ?_⟩
  intro character mark punctuation
  simp [Token.read, (start_punctuation punctuation).2.1]

theorem reads_null : Reads .null :=
  reads_word rfl (fun _ => rfl) rfl fun _ => rfl

theorem reads_bool (value : Bool) : Reads (.bool value) := by
  cases value with
  | true => exact reads_word rfl (fun _ => rfl) rfl fun _ => rfl
  | false => exact reads_word rfl (fun _ => rfl) rfl fun _ => rfl

theorem readAll_numeric {characters : List Char} (assembly : Assembly)
    (numeric : ∀ character ∈ characters, Token.isNumeric character = true) (before : List Char) :
    Progress.readAll ⟨.number before, assembly⟩ characters =
      some ⟨.number (characters.reverse ++ before), assembly⟩ := by
  induction characters generalizing before with
  | nil => rfl
  | cons first rest ih =>
      rw [List.forall_mem_cons] at numeric
      have goesOn : Token.read (.number before) first = some (.number (first :: before), []) := by
        simp [Token.read, numeric.1]
      rw [Progress.readAll_open assembly rest goesOn, ih numeric.2]
      simp

theorem reads_number {numeral : Numeral} (plain : numeral.Plain) : Reads (.number numeral) := by
  intro frames
  have numeric := plain.isNumeric
  have ends : Token.finish (.number numeral.chars.reverse) = some [.number numeral] := by
    simp [Token.finish, plain.ofChars?_chars]
  refine ⟨⟨.number numeral.chars.reverse, ⟨frames, .value⟩⟩, ?_, settles_open ends rfl ?_⟩
  · -- The first character opens the token, all others go on with it.
    rw [Json.chars]
    cases characters : numeral.chars with
    | nil => exact absurd characters plain.chars_ne_nil
    | cons first rest =>
        rw [characters, List.forall_mem_cons] at numeric
        have start : Token.read .between first = some (.number [first], []) :=
          start_numeric numeric.1
        rw [Progress.readAll_open _ rest start, readAll_numeric _ numeric.2]
        simp
  · intro character mark punctuation
    simp [Token.read, (start_punctuation punctuation).2.2]

theorem reads_text (text : String) : Reads (.string (some text)) := by
  intro frames
  refine ⟨⟨.between, ⟨frames, .done (.string (some text))⟩⟩, ?_, settles_between _⟩
  rw [Json.chars, readAll_stringChars]
  rfl

end Tokens

section Nesting

/-- A mark behind a value is taken by what surrounds the value. -/
theorem Reads.readAll_close {json : Json} (reads : Reads json) (frames : List Frame)
    {character : Char} {token : Token} (mark : Token.punctuation? character = some token)
    {next : Assembly} (taken : Assembly.take ⟨frames, .done json⟩ token = some next)
    (rest : List Char) :
    Progress.readAll ⟨.between, ⟨frames, .value⟩⟩ (json.chars ++ character :: rest) =
      Progress.readAll ⟨.between, next⟩ rest := by
  obtain ⟨progress, read, settles⟩ := reads frames
  rw [Progress.readAll_then read, Progress.readAll_cons, settles.close character token mark, taken,
    Option.map_some, Option.bind_some]

theorem readAll_mark {assembly next : Assembly} {character : Char} {token : Token}
    (mark : Token.punctuation? character = some token) (taken : assembly.take token = some next)
    (rest : List Char) :
    Progress.readAll ⟨.between, assembly⟩ (character :: rest) =
      Progress.readAll ⟨.between, next⟩ rest := by
  rw [Progress.readAll_cons, (settles_between assembly).close character token mark, taken,
    Option.map_some, Option.bind_some]

theorem readAll_items {items : List Json} (each : ∀ item ∈ items, Reads item)
    (some_ : items ≠ []) (frames : List Frame) (before : List Json) :
    Progress.readAll ⟨.between, ⟨.array before :: frames, .value⟩⟩ (itemsChars items ++ [']']) =
      some ⟨.between, ⟨frames, .done (.array (before.reverse ++ items))⟩⟩ := by
  induction items generalizing before with
  | nil => exact absurd rfl some_
  | cons item rest ih =>
      rw [List.forall_mem_cons] at each
      cases rest with
      | nil =>
          rw [itemsChars, each.1.readAll_close _ rfl rfl]
          simp [Progress.readAll_nil]
      | cons second others =>
          rw [itemsChars, List.append_assoc, List.cons_append, each.1.readAll_close _ rfl rfl,
            ih each.2 (by simp)]
          · simp
          · simp

theorem reads_array {items : List Json} (each : ∀ item ∈ items, Reads item) :
    Reads (.array items) := by
  intro frames
  refine ⟨⟨.between, ⟨frames, .done (.array items)⟩⟩, ?_, settles_between _⟩
  rw [Json.chars, List.cons_append, readAll_mark rfl rfl]
  cases items with
  | nil => rfl
  | cons item rest => exact readAll_items each (by simp) frames []

/-- A key and its value, up to the mark behind them. -/
theorem readAll_member {key : String} {value : Json} (reads : Reads value) (frames : List Frame)
    (before : List Member) {character : Char} {token : Token}
    (mark : Token.punctuation? character = some token) {next : Assembly}
    (taken : Assembly.take ⟨.object before (some key) :: frames, .done value⟩ token = some next)
    (rest : List Char) :
    Progress.readAll ⟨.between, ⟨frames, .key before⟩⟩
        (stringChars (some key) ++ ':' :: value.chars ++ character :: rest) =
      Progress.readAll ⟨.between, next⟩ rest := by
  have keyed : Progress.readAll ⟨.between, ⟨frames, .key before⟩⟩ (stringChars (some key)) =
      some ⟨.between, ⟨frames, .colon before (some key)⟩⟩ := by
    rw [readAll_stringChars]
    rfl
  rw [List.append_assoc, Progress.readAll_then keyed, List.cons_append, readAll_mark rfl rfl,
    reads.readAll_close _ mark taken]

theorem readAll_members {members : List Member}
    (each : ∀ member ∈ members, member.1.isSome = true ∧ Reads member.2) (some_ : members ≠ [])
    (frames : List Frame) (before : List Member) :
    Progress.readAll ⟨.between, ⟨frames, .key before⟩⟩ (membersChars members ++ ['}']) =
      some ⟨.between, ⟨frames, .done (.object (before.reverse ++ members))⟩⟩ := by
  induction members generalizing before with
  | nil => exact absurd rfl some_
  | cons member rest ih =>
      obtain ⟨key, value⟩ := member
      rw [List.forall_mem_cons] at each
      obtain ⟨key, rfl⟩ := Option.isSome_iff_exists.mp each.1.1
      cases rest with
      | nil =>
          rw [membersChars, readAll_member each.1.2 frames before rfl rfl]
          simp [Progress.readAll_nil]
      | cons second others =>
          rw [membersChars, List.append_assoc, List.cons_append,
            readAll_member each.1.2 frames before rfl rfl, ih each.2 (by simp)]
          · simp
          · simp

theorem reads_object {members : List Member}
    (each : ∀ member ∈ members, member.1.isSome = true ∧ Reads member.2) :
    Reads (.object members) := by
  intro frames
  refine ⟨⟨.between, ⟨frames, .done (.object members)⟩⟩, ?_, settles_between _⟩
  rw [Json.chars, List.cons_append, readAll_mark rfl rfl]
  cases members with
  | nil => rfl
  | cons member rest => exact readAll_members each (by simp) frames []

end Nesting

inductive Plain : Json → Prop
  | null : Plain .null
  | bool (value : Bool) : Plain (.bool value)
  | number {numeral : Numeral} (plain : numeral.Plain) : Plain (.number numeral)
  | text (text : String) : Plain (.string (some text))
  | array {items : List Json} (each : ∀ item ∈ items, Plain item) : Plain (.array items)
  | object {members : List Member} (keyed : ∀ member ∈ members, member.1.isSome = true)
      (each : ∀ member ∈ members, Plain member.2) : Plain (.object members)

theorem Plain.reads {json : Json} (plain : json.Plain) : Reads json := by
  induction plain with
  | null => exact reads_null
  | bool value => exact reads_bool value
  | number plain => exact reads_number plain
  | text text => exact reads_text text
  | array _ ih => exact reads_array ih
  | object keyed _ ih =>
      exact reads_object fun member found => ⟨keyed member found, ih member found⟩

/-- The text of a plain value is read back as the value. -/
theorem Plain.ofText?_render {json : Json} (plain : json.Plain) :
    ofText? json.render = some json := by
  obtain ⟨progress, read, settles⟩ := plain.reads []
  have all : json.render.toList.foldlM Progress.read Progress.empty = some progress := by
    rw [render, String.toList_ofList]
    exact read
  rw [ofText?, all]
  exact settles.finish

end VBed.Json
