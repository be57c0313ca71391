import Mathlib.Data.List.Induction
import Mathlib.Data.List.TakeWhile
import VBed.Fault
import VBed.Proofs.Digits

/-!
The notation of needles as a grammar, described apart from its reader. A position is spelled in
ASCII digits, with or without a plus sign before them; zeros may lead, and the value is a machine
word. Reading accepts the texts of the grammar, with blanks at both ends, and no others.
-/

namespace VBed

namespace Text

def Encloses (text body : List Char) : Prop :=
  ∃ before after, text = before ++ body ++ after ∧
    ∀ character ∈ before ++ after, isBlank character = true

/-- A run of ASCII digits writes a number. Zeros may lead. -/
inductive Writes : List Char → Nat → Prop
  | digit {value : Nat} (small : value < 10) : Writes [value.digitChar] value
  | append {run : List Char} {number value : Nat} (start : Writes run number)
      (small : value < 10) : Writes (run ++ [value.digitChar]) (10 * number + value)

inductive Spells : List Char → Nat → Prop
  | plain {digits : List Char} {word : Nat} (writes : Writes digits word)
      (bounded : word < wordCount) : Spells digits word
  | signed {digits : List Char} {word : Nat} (writes : Writes digits word)
      (bounded : word < wordCount) : Spells ('+' :: digits) word

variable {text body run : List Char} {number word : Nat}

theorem encloses_trim (text : List Char) : Encloses text (trim text) := by
  have leading := @List.takeWhile_append_dropWhile _ isBlank text
  have trailing := congrArg List.reverse
    (@List.takeWhile_append_dropWhile _ isBlank (text.dropWhile isBlank).reverse)
  rw [List.reverse_append, List.reverse_reverse] at trailing
  refine ⟨text.takeWhile isBlank,
    ((text.dropWhile isBlank).reverse.takeWhile isBlank).reverse, ?_, fun character member => ?_⟩
  · rw [trim, List.append_assoc, trailing, leading]
  · rcases List.mem_append.mp member with before | after
    · exact List.mem_takeWhile_imp before
    · exact List.mem_takeWhile_imp (List.mem_reverse.mp after)

theorem Encloses.trim_eq (encloses : Encloses text body)
    (visible : ∀ character ∈ body, isBlank character = false) : trim text = body := by
  obtain ⟨before, after, rfl, blank⟩ := encloses
  have blankBefore : ∀ character ∈ before, isBlank character = true :=
    fun character member => blank character (List.mem_append_left after member)
  have blankAfter : ∀ character ∈ after, isBlank character = true :=
    fun character member => blank character (List.mem_append_right before member)
  rw [trim, List.append_assoc, List.dropWhile_append_of_pos blankBefore]
  cases body with
  | nil =>
      rw [List.nil_append, List.dropWhile_eq_nil_iff.mpr blankAfter]
      rfl
  | cons first rest =>
      rw [List.cons_append, List.dropWhile_cons, visible first (by simp), if_neg (by simp),
        ← List.cons_append, List.reverse_append,
        List.dropWhile_append_of_pos (by simpa using blankAfter),
        dropWhile_isBlank fun character member => visible character (List.mem_reverse.mp member),
        List.reverse_reverse]

theorem natural?_eq_some :
    natural? text = some number ↔ text ≠ [] ∧
      (∀ character ∈ text, character.isDigit = true) ∧ Nat.ofDigitChars 10 text 0 = number := by
  cases text with
  | nil => simp [natural?]
  | cons first rest =>
      by_cases digits : (first :: rest).all Char.isDigit = true
      · have each := List.all_eq_true.mp digits
        rw [natural?, if_neg (by simp), if_pos digits, Option.some.injEq]
        exact ⟨fun value => ⟨by simp, each, value⟩, fun facts => facts.2.2⟩
      · rw [natural?, if_neg (by simp), if_neg digits]
        constructor
        · intro impossible
          cases impossible
        · rintro ⟨_, each, _⟩
          exact absurd (List.all_eq_true.mpr each) digits

theorem exists_digitChar {character : Char} (digit : character.isDigit = true) :
    ∃ value < 10, value.digitChar = character := by
  obtain ⟨lowest, highest⟩ := toNat_of_isDigit digit
  have small : character.toNat - 48 < 10 := by omega
  refine ⟨character.toNat - 48, small, Char.toNat_inj.mp ?_⟩
  rw [Nat.toNat_digitChar_of_lt_ten small]
  omega

theorem ofDigitChars_append_digit (run : List Char) {value : Nat} (small : value < 10) :
    Nat.ofDigitChars 10 (run ++ [value.digitChar]) 0 =
      10 * Nat.ofDigitChars 10 run 0 + value := by
  have code : value.digitChar.toNat - '0'.toNat = value := by
    rw [Nat.toNat_digitChar_of_lt_ten small]
    exact Nat.add_sub_cancel_left 48 value
  rw [Nat.ofDigitChars_append, Nat.ofDigitChars_cons, code, Nat.ofDigitChars_nil]

theorem writes_iff : Writes text number ↔ natural? text = some number := by
  constructor
  · intro writes
    rw [natural?_eq_some]
    induction writes with
    | digit small =>
        have value := ofDigitChars_append_digit [] small
        exact ⟨by simp, by simpa [Nat.isDigit_digitChar] using small, by simpa using value⟩
    | append start small ih =>
        obtain ⟨_, digits, value⟩ := ih
        refine ⟨by simp, fun character member => ?_,
          by rw [ofDigitChars_append_digit _ small, value]⟩
        rcases List.mem_append.mp member with before | last
        · exact digits character before
        · rw [List.mem_singleton.mp last, Nat.isDigit_digitChar]
          exact decide_eq_true small
  · rw [natural?_eq_some]
    rintro ⟨named, digits, rfl⟩
    -- Reading takes one digit after another, so the last one is added to what was read before it.
    induction text using List.reverseRecOn with
    | nil => exact absurd rfl named
    | append_singleton run last ih =>
        obtain ⟨value, small, rfl⟩ := exists_digitChar (digits last (by simp))
        rw [ofDigitChars_append_digit run small]
        by_cases single : run = []
        · subst single
          simpa using Writes.digit small
        · exact .append
            (ih single fun character member => digits character (by simp [member])) small

theorem isDigit_of_writes (writes : Writes text number) {character : Char}
    (member : character ∈ text) : character.isDigit = true :=
  (natural?_eq_some.mp (writes_iff.mp writes)).2.1 character member

theorem word?_of_unsigned (unsigned : ∀ rest, text ≠ '+' :: rest) :
    word? text = (natural? text).filter (· < wordCount) := by
  rw [word?]
  exact unsigned

theorem word?_eq_some_iff_spells : word? text = some word ↔ Spells text word := by
  constructor
  · intro found
    by_cases sign : ∃ rest, text = '+' :: rest
    · obtain ⟨rest, rfl⟩ := sign
      obtain ⟨read, bounded⟩ := Option.filter_eq_some_iff.mp found
      exact .signed (writes_iff.mpr read) (of_decide_eq_true bounded)
    · rw [word?_of_unsigned fun rest same => sign ⟨rest, same⟩] at found
      obtain ⟨read, bounded⟩ := Option.filter_eq_some_iff.mp found
      exact .plain (writes_iff.mpr read) (of_decide_eq_true bounded)
  · rintro (⟨writes, bounded⟩ | ⟨writes, bounded⟩)
    · have unsigned : ∀ rest, text ≠ '+' :: rest := by
        rintro rest rfl
        exact absurd (isDigit_of_writes writes (List.mem_cons_self ..)) (by decide)
      rw [word?_of_unsigned unsigned]
      exact Option.filter_eq_some_iff.mpr ⟨writes_iff.mp writes, decide_eq_true bounded⟩
    · exact Option.filter_eq_some_iff.mpr ⟨writes_iff.mp writes, decide_eq_true bounded⟩

theorem Spells.character (spells : Spells text word) {character : Char}
    (member : character ∈ text) : character.isDigit = true ∨ character = '+' := by
  cases spells with
  | plain writes => exact Or.inl (isDigit_of_writes writes member)
  | signed writes =>
      rcases List.mem_cons.mp member with sign | digit
      · exact Or.inr sign
      · exact Or.inl (isDigit_of_writes writes digit)

theorem Spells.visible (spells : Spells text word) {character : Char}
    (member : character ∈ text) : isBlank character = false := by
  rcases spells.character member with digit | rfl
  · exact isBlank_of_isDigit digit
  · decide

theorem Spells.bounded (spells : Spells text word) : word < wordCount := by
  cases spells <;> assumption

end Text

namespace Needle

/-- The names of needles: the letter of the bed, an `s` for a slider, and the position. -/
inductive Names : List Char → Needle → Prop
  | front {number : List Char} {position : Nat} (spells : Text.Spells number position) :
      Names ('f' :: number) ⟨.front, position, false⟩
  | frontSlider {number : List Char} {position : Nat} (spells : Text.Spells number position) :
      Names ('f' :: 's' :: number) ⟨.front, position, true⟩
  | back {number : List Char} {position : Nat} (spells : Text.Spells number position) :
      Names ('b' :: number) ⟨.back, position, false⟩
  | backSlider {number : List Char} {position : Nat} (spells : Text.Spells number position) :
      Names ('b' :: 's' :: number) ⟨.back, position, true⟩

def Denotes (text : String) (needle : Needle) : Prop :=
  ∃ name, Text.Encloses text.toList name ∧ Names name needle

variable {text : String} {name rest : List Char} {needle : Needle} {side : Side}

theorem names_iff :
    Names name needle ↔ ∃ number, name = needle.mark ++ number ∧
      Text.Spells number needle.position := by
  constructor
  · rintro (spells | spells | spells | spells) <;> exact ⟨_, rfl, spells⟩
  · obtain ⟨side, position, slider⟩ := needle
    rintro ⟨number, rfl, spells⟩
    cases side <;> cases slider
    · exact .front spells
    · exact .frontSlider spells
    · exact .back spells
    · exact .backSlider spells

theorem Names.visible (names : Names name needle) {character : Char}
    (member : character ∈ name) : Text.isBlank character = false := by
  obtain ⟨number, rfl, spells⟩ := names_iff.mp names
  rcases List.mem_append.mp member with marked | spelled
  · rcases mem_mark marked with rfl | rfl | rfl <;> decide
  · exact spells.visible spelled

theorem ofRest?_eq_some :
    ofRest? side rest = some needle ↔ needle.side = side ∧ ∃ number,
      rest = (if needle.slider then ['s'] else []) ++ number ∧
        Text.Spells number needle.position := by
  constructor
  · intro found
    unfold ofRest? at found
    split at found
    all_goals
      obtain ⟨position, read, rfl⟩ := Option.map_eq_some_iff.mp found
      exact ⟨rfl, _, rfl, Text.word?_eq_some_iff_spells.mp read⟩
  · obtain ⟨side, position, slider⟩ := needle
    rintro ⟨rfl, number, rfl, spells⟩
    have read := Text.word?_eq_some_iff_spells.mpr spells
    cases slider with
    | true => simp [ofRest?, read]
    | false =>
        unfold ofRest?
        split
        -- An `s` cannot be the first character of a position.
        · rename_i digits same
          obtain rfl : number = 's' :: digits := same
          exact absurd (spells.character (List.mem_cons_self ..)) (by decide)
        · simp [read]

theorem ofText?_eq_some : ofText? text = some needle ↔ Denotes text needle := by
  constructor
  · intro found
    refine ⟨_, Text.encloses_trim text.toList, ?_⟩
    rw [names_iff]
    rw [ofText?] at found
    split at found
    · rename_i rest trimmed
      obtain ⟨front, number, rfl, spells⟩ := ofRest?_eq_some.mp found
      exact ⟨number, by rw [trimmed, mark, front]; rfl, spells⟩
    · rename_i rest trimmed
      obtain ⟨back, number, rfl, spells⟩ := ofRest?_eq_some.mp found
      exact ⟨number, by rw [trimmed, mark, back]; rfl, spells⟩
    · cases found
  · rintro ⟨name, encloses, names⟩
    rw [ofText?, encloses.trim_eq fun _ => names.visible]
    obtain ⟨number, rfl, spells⟩ := names_iff.mp names
    obtain ⟨side, position, slider⟩ := needle
    cases side <;> exact ofRest?_eq_some.mpr ⟨rfl, number, rfl, spells⟩

theorem Denotes.bounded (denotes : Denotes text needle) : needle.position < Text.wordCount := by
  obtain ⟨name, _, names⟩ := denotes
  obtain ⟨number, _, spells⟩ := names_iff.mp names
  exact spells.bounded

theorem ofText_eq_ok : ofText text = .ok needle ↔ Denotes text needle := by
  rw [ofText, ← ofText?_eq_some]
  cases ofText? text <;> simp

/-- A text is read as the needle that it denotes, and one that denotes none is refused with the text
as it was given. The name under which a needle was read need not be the one that it is written
with, but that one names the same needle. -/
structure ReadExactly (text : String) : Prop where
  read : ∀ needle, ofText text = .ok needle ↔ Denotes text needle
  refused : ∀ fault, ofText text = .error fault ↔
    fault = .invalidNeedle text ∧ ¬∃ needle, Denotes text needle
  reported : (Fault.invalidNeedle text).code = "INVALID_NEEDLE" ∧
    (Fault.invalidNeedle text).message = "Cannot parse needle '" ++ text ++ "'"
  again : ∀ needle, ofText text = .ok needle → ofText needle.text = .ok needle

theorem ofText_text (word : needle.position < Text.wordCount) :
    ofText needle.text = .ok needle := by
  rw [ofText, ofText?_text word]

theorem ofText_eq_error {fault : Fault} :
    ofText text = .error fault ↔
      fault = .invalidNeedle text ∧ ¬∃ needle, Denotes text needle := by
  simp only [← ofText?_eq_some]
  rw [ofText]
  cases ofText? text with
  | some needle => simp
  | none => simp [eq_comm]

/-- The texts that are read as needles are the names of needles with blanks at both ends, and every
needle is read back from the name that is written for it. -/
theorem names_read_exactly :
    (∀ text, ReadExactly text) ∧
      (∀ needle : Needle, needle.position < Text.wordCount → ofText needle.text = .ok needle) ∧
      Function.Injective Needle.text := by
  refine ⟨fun text => ?_, fun needle word => ofText_text word, text_injective⟩
  exact ⟨fun _ => ofText_eq_ok, fun _ => ofText_eq_error, ⟨rfl, rfl⟩,
    fun _ found => ofText_text (ofText_eq_ok.mp found).bounded⟩

/-- The greatest position is read with zeros and a plus sign before it and blanks around, and
written without them; one more is refused. -/
theorem names_read_exactly_greatest :
    let greatest : Needle := ⟨.front, 18446744073709551615, true⟩
    let tooFar := "fs18446744073709551616"
    greatest.position < Text.wordCount ∧ ofText greatest.text = .ok greatest ∧
      greatest.text = "fs18446744073709551615" ∧
      Denotes "\u3000fs+0018446744073709551615\t" greatest ∧
      ¬∃ needle, Denotes tooFar needle := by
  intro greatest tooFar
  obtain ⟨texts, written, _⟩ := names_read_exactly
  refine ⟨by decide, written _ (by decide), by decide +kernel, ?_, ?_⟩
  · exact ((texts _).read _).mp (by decide +kernel)
  · have refused : ofText tooFar = .error (.invalidNeedle tooFar) := by decide +kernel
    exact (((texts tooFar).refused _).mp refused).2

end Needle

end VBed
