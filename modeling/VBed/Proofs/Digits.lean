import VBed.Needle

/-!
Numbers and needles in text. A number is read back from its digits, of which the first is a zero
only for zero itself, and a needle is read back from its text.
-/

namespace VBed

namespace Text

/-- A run of accepted characters ends where the rest of the text does not go on with one. -/
theorem run_append_inj {accepts : Char → Bool} {run other rest otherRest : List Char}
    (inRun : ∀ character ∈ run, accepts character = true)
    (inOther : ∀ character ∈ other, accepts character = true)
    (stops : ∀ character ∈ rest.head?, accepts character = false)
    (otherStops : ∀ character ∈ otherRest.head?, accepts character = false)
    (same : run ++ rest = other ++ otherRest) : run = other ∧ rest = otherRest := by
  have ended : ∀ rest : List Char, (∀ character ∈ rest.head?, accepts character = false) →
      rest.takeWhile accepts = [] := by
    intro rest stops
    cases rest with
    | nil => rfl
    | cons first others =>
        rw [List.takeWhile_cons, stops first rfl, if_neg Bool.false_ne_true]
  -- Either run is what stands before the first character that is not accepted.
  have runs := congrArg (List.takeWhile accepts) same
  rw [List.takeWhile_append_of_pos inRun, List.takeWhile_append_of_pos inOther, ended rest stops,
    ended otherRest otherStops, List.append_nil, List.append_nil] at runs
  subst runs
  exact ⟨rfl, List.append_cancel_left same⟩

theorem isDigit_of_mem {number : Nat} {character : Char}
    (member : character ∈ Nat.toDigits 10 number) : character.isDigit = true :=
  Nat.isDigit_of_mem_toDigits (by decide) (by decide) member

theorem toDigits_injective {first second : Nat}
    (same : Nat.toDigits 10 first = Nat.toDigits 10 second) : first = second := by
  have read := congrArg (Nat.ofDigitChars 10 · 0) same
  simpa using read

theorem decimal_injective {first second : Nat} (same : decimal first = decimal second) :
    first = second :=
  toDigits_injective (String.ofList_injective same)

theorem toDigits_ne_zero_cons {number : Nat} (positive : number ≠ 0) (rest : List Char) :
    Nat.toDigits 10 number ≠ '0' :: rest := by
  -- The first digit is that of the number without its last digit, down to a single one.
  induction number using Nat.strongRecOn generalizing rest with
  | ind number ih =>
      by_cases small : number < 10
      · rw [Nat.toDigits_of_lt_base small]
        intro same
        have digit : number.digitChar = '0' := (List.cons.inj same).1
        have only : ∀ other, other < 10 → other.digitChar = '0' → other = 0 := by decide
        exact positive (only number small digit)
      · rw [Nat.toDigits_of_base_le (by decide) (by omega)]
        intro same
        cases leading : Nat.toDigits 10 (number / 10) with
        | nil => exact Nat.toDigits_ne_nil leading
        | cons first others =>
            rw [leading, List.cons_append] at same
            rw [(List.cons.inj same).1] at leading
            exact ih (number / 10) (by omega) (by omega) others leading

theorem natural?_toDigits (number : Nat) :
    natural? (Nat.toDigits 10 number) = some number := by
  have digits : (Nat.toDigits 10 number).all Char.isDigit = true :=
    List.all_eq_true.mpr fun _ => isDigit_of_mem
  simp [natural?, digits]

theorem ne_of_mem_toDigits {number : Nat} {character other : Char}
    (member : character ∈ Nat.toDigits 10 number) (letter : other.isDigit = false) :
    character ≠ other := by
  rintro rfl
  rw [isDigit_of_mem member] at letter
  exact absurd letter (by decide)

theorem toDigits_ne_cons {number : Nat} {letter : Char} (plain : letter.isDigit = false)
    (rest : List Char) : Nat.toDigits 10 number ≠ letter :: rest := by
  intro same
  have member : letter ∈ Nat.toDigits 10 number := by simp [same]
  exact ne_of_mem_toDigits member plain rfl

theorem word?_toDigits {number : Nat} (word : number < wordCount) :
    word? (Nat.toDigits 10 number) = some number := by
  have unsigned : ∀ rest, Nat.toDigits 10 number ≠ '+' :: rest := toDigits_ne_cons (by decide)
  rw [word?, natural?_toDigits, Option.filter_some_pos (by simpa using word)]
  exact unsigned

theorem toNat_of_isDigit {character : Char} (digit : character.isDigit = true) :
    48 ≤ character.toNat ∧ character.toNat ≤ 57 := by
  simp only [Char.isDigit, Bool.and_eq_true, decide_eq_true_eq] at digit
  exact ⟨digit.1, digit.2⟩

theorem isBlank_of_isDigit {character : Char} (digit : character.isDigit = true) :
    isBlank character = false := by
  have range := toNat_of_isDigit digit
  simp only [isBlank, blankRanges, List.any_cons, List.any_nil, Bool.or_false,
    Bool.or_eq_false_iff, Bool.and_eq_false_iff, decide_eq_false_iff_not]
  omega

theorem dropWhile_isBlank {text : List Char}
    (visible : ∀ character ∈ text, isBlank character = false) : text.dropWhile isBlank = text := by
  cases text with
  | nil => rfl
  | cons first rest => rw [List.dropWhile_cons, visible first (by simp), if_neg (by simp)]

theorem trim_of_visible {text : List Char}
    (visible : ∀ character ∈ text, isBlank character = false) : trim text = text := by
  rw [trim, dropWhile_isBlank visible, dropWhile_isBlank (by simpa using visible),
    List.reverse_reverse]

end Text

namespace Needle

def mark (needle : Needle) : List Char :=
  needle.side.letter :: if needle.slider then ['s'] else []

theorem toList_text (needle : Needle) :
    needle.text.toList = needle.mark ++ Nat.toDigits 10 needle.position := by
  simp [text, mark, Text.decimal]

theorem mem_mark {needle : Needle} {character : Char} (member : character ∈ needle.mark) :
    character = 'f' ∨ character = 'b' ∨ character = 's' := by
  obtain ⟨side, position, slider⟩ := needle
  have marks : character = side.letter ∨ character = 's' := by
    cases slider <;> simp_all [mark]
  rcases marks with letter | slide
  · cases side <;> simp [letter, Side.letter]
  · simp [slide]

theorem isBlank_of_mem_text {needle : Needle} {character : Char}
    (member : character ∈ needle.text.toList) : Text.isBlank character = false := by
  rw [toList_text, List.mem_append] at member
  rcases member with marked | digit
  · rcases mem_mark marked with rfl | rfl | rfl <;> decide
  · exact Text.isBlank_of_isDigit (Text.isDigit_of_mem digit)

/-- Reading the part behind the letter of the bed. -/
theorem ofRest?_toDigits {position : Nat} (word : position < Text.wordCount) (side : Side)
    (slider : Bool) :
    ofRest? side ((if slider then ['s'] else []) ++ Nat.toDigits 10 position) =
      some ⟨side, position, slider⟩ := by
  cases slider with
  | true => simp [ofRest?, Text.word?_toDigits word]
  | false =>
      have ordinary : ∀ rest, Nat.toDigits 10 position ≠ 's' :: rest :=
        Text.toDigits_ne_cons (by decide)
      simp only [Bool.false_eq_true, if_false, List.nil_append]
      rw [ofRest?]
      · simp [Text.word?_toDigits word]
      · exact fun rest same => ordinary rest same

theorem ofText?_text {needle : Needle} (word : needle.position < Text.wordCount) :
    ofText? needle.text = some needle := by
  have visible : ∀ character ∈ needle.text.toList, Text.isBlank character = false :=
    fun _ => isBlank_of_mem_text
  rw [ofText?, Text.trim_of_visible visible, toList_text, mark]
  obtain ⟨side, position, slider⟩ := needle
  cases side <;> exact ofRest?_toDigits word _ slider

theorem text_injective : Function.Injective text := by
  intro first second same
  obtain ⟨side, position, slider⟩ := first
  obtain ⟨otherSide, otherPosition, otherSlider⟩ := second
  have texts := congrArg String.toList same
  simp only [toList_text, mark, List.cons_append, List.cons.injEq] at texts
  obtain ⟨letters, rests⟩ := texts
  have sides : side = otherSide := by
    cases side <;> cases otherSide <;> first | rfl | exact absurd letters (by decide)
  have ordinary : ∀ number rest, Nat.toDigits 10 number ≠ 's' :: rest :=
    fun _ => Text.toDigits_ne_cons (by decide)
  -- The mark of a slider is no digit, so it is not taken for the start of the position.
  have sliders : slider = otherSlider := by
    cases slider <;> cases otherSlider
    · rfl
    · exact absurd (by simpa using rests) (ordinary position _)
    · exact absurd (by simpa using rests.symm) (ordinary otherPosition _)
    · rfl
  subst sides sliders
  rw [Text.toDigits_injective (List.append_cancel_left rests)]

end Needle

end VBed
