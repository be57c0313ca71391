import VBed.Program
import VBed.Proofs.Runs
import VBed.Proofs.Wording

/-!
Knitout as lines of text. A line ends where its text does unless it is a comment with a line end in
it, and the words of an instruction go up to the first semicolon. Operations that are not comments
give lines without line ends, of which the text gives back each one.
-/

namespace VBed

theorem Text.not_mem_of_mem_splitOn {separator : Char} {text part : List Char}
    (member : part ∈ text.splitOn separator) : separator ∉ part := by
  induction text generalizing part with
  | nil => simp_all
  | cons first rest ih =>
      rw [List.splitOn_cons_eq_if_modifyHead] at member
      split at member
      · rcases List.mem_cons.mp member with rfl | later
        · simp
        · exact ih later
      · rename_i other
        cases parts : rest.splitOn separator with
        | nil => exact absurd parts (List.splitOn_ne_nil separator rest)
        | cons head tail =>
            rw [parts] at member ih
            rcases List.mem_cons.mp member with rfl | later
            · have differs : separator ≠ first := by
                rintro rfl
                simp at other
              simp [differs, ih (List.mem_cons_self)]
            · exact ih (List.mem_cons_of_mem _ later)

namespace Text

def Unbroken (text : String) : Prop :=
  '\n' ∉ text.toList

instance (text : String) : Decidable (Unbroken text) :=
  inferInstanceAs (Decidable ('\n' ∉ text.toList))

theorem unbroken_append {first second : String} :
    Unbroken (first ++ second) ↔ Unbroken first ∧ Unbroken second := by
  simp only [Unbroken, String.toList_append, List.mem_append, not_or]

theorem unbroken_of_isWord {text : String} (word : IsWord text) : Unbroken text :=
  fun broken => absurd (isWord_iff.mp word _ broken) (by decide)

theorem unbroken_decimal (number : Nat) : Unbroken (decimal number) := by
  refine unbroken_of_isWord (isWord_iff.mpr fun character digit => ?_)
  rw [decimal, String.toList_ofList] at digit
  exact isWordChar_of_isDigit (isDigit_of_mem digit)

theorem unbroken_bracketed (numbers : List Nat) : Unbroken (bracketed numbers) := by
  have inside : Unbroken (", ".intercalate (numbers.map decimal)) := by
    intro broken
    rw [String.toList_intercalate] at broken
    rcases mem_intercalate broken with between | ⟨text, found, digits⟩
    · revert between
      decide
    · rw [List.map_map] at found
      obtain ⟨number, _, same⟩ := List.mem_map.mp found
      rw [← same] at digits
      exact unbroken_decimal number digits
  rw [bracketed, unbroken_append, unbroken_append]
  exact ⟨⟨by decide, inside⟩, by decide⟩

end Text

theorem Machine.unbroken_returnNote (start : Needle) (loops : List LoopId) :
    Text.Unbroken (returnNote start loops) := by
  have needles : ∀ needle : Needle, Text.Unbroken needle.text :=
    fun needle => Text.unbroken_of_isWord needle.isWord_text
  cases side : start.side <;>
    simp only [returnNote, side, Text.unbroken_append, needles, Text.unbroken_bracketed] <;>
    decide

theorem Instruction.mem_text {instruction : Instruction} (finite : instruction.IsFinite)
    {character : Char} (inside : character ∈ instruction.text.toList) :
    character = ' ' ∨ Text.isWordChar character = true := by
  rw [text_eq, String.toList_intercalate] at inside
  rcases Text.mem_intercalate inside with space | ⟨word, found, letter⟩
  · exact .inl (List.mem_singleton.mp space)
  · obtain ⟨token, member, same⟩ := List.mem_map.mp found
    rw [← same] at letter
    exact .inr (Text.isWord_iff.mp (isWord_tokens finite token member) character letter)

theorem Instruction.text_ne_nil (instruction : Instruction) : instruction.text.toList ≠ [] := by
  rw [text_eq, String.toList_intercalate]
  cases instruction with
  | drop needle => simp [tokens, List.intercalate]
  | xfer start target => simp [tokens, List.intercalate]
  | rack racking => simp [tokens, List.intercalate]
  | _ =>
      rw [tokens, List.map_append, List.map_cons, List.cons_append,
        List.intercalate_cons_of_ne_nil (by simp [CarrierSet.tokens_ne_nil])]
      simp

namespace Line

/-- The lines that operations give which are not comments: an instruction alone, a transfer with
the note of a return, and the headings of peeled sheets. -/
inductive OfWork : Line → Prop
  | plain {instruction : Instruction} (finite : instruction.IsFinite) :
      OfWork (.plain instruction)
  | returned (start target home : Needle) (loops : List LoopId) :
      OfWork (.instruction (.xfer start target) (some (Machine.returnNote home loops)))
  | peeled (sheet active : Nat) :
      OfWork (.comment
        (" Peel sheet " ++ Text.decimal sheet ++ " relative to " ++ Text.decimal active))
  | peeledAll (sheet : Nat) (active : List Nat) :
      OfWork (.comment
        (" Peel sheet " ++ Text.decimal sheet ++ " relative to " ++ Text.bracketed active))

def words : Line → List Char
  | instruction content _ => content.text.toList
  | _ => []

def remark : Line → List Char
  | version number => ';' :: '!' :: ("knitout-".toList ++ (Text.decimal number).toList)
  | comment text => ';' :: text.toList
  | instruction _ none => []
  | instruction _ (some note) => ';' :: note.toList

theorem toList_content (line : Line) : line.content.toList = line.words ++ line.remark := by
  cases line with
  | version number =>
      have mark : ";!knitout-".toList = ';' :: '!' :: "knitout-".toList := by decide
      rw [content, String.toList_append, mark]
      rfl
  | comment text => exact String.toList_append
  | instruction content note =>
      cases note with
      | none => exact (List.append_nil _).symm
      | some note =>
          rw [Line.content, String.toList_append, String.toList_append, List.append_assoc]
          rfl

def Told (line : Line) : Prop :=
  (∃ number, line = .version number) ∨ line.OfWork

theorem Told.finite {content : Instruction} {note : Option String}
    (told : (instruction content note).Told) : content.IsFinite := by
  rcases told with ⟨number, same⟩ | work
  · cases same
  · cases work with
    | plain finite => exact finite
    | returned start target home loops => trivial

/-- A heading starts with a space, other than the mark of a version. -/
theorem Told.toList_comment {text : String} (told : (comment text).Told) :
    ∃ rest, text.toList = ' ' :: rest := by
  rcases told with ⟨number, same⟩ | work
  · cases same
  · cases work <;> exact ⟨_, by simp only [String.toList_append, List.append_assoc]; rfl⟩

theorem Told.unbroken {line : Line} (told : line.Told) : Text.Unbroken line.content := by
  have worded : ∀ instruction : Instruction, instruction.IsFinite →
      Text.Unbroken instruction.text := by
    intro instruction finite broken
    rcases Instruction.mem_text finite broken with space | letter
    · exact absurd space (by decide)
    · exact absurd letter (by decide)
  rcases told with ⟨number, rfl⟩ | work
  · rw [content, Text.unbroken_append]
    exact ⟨by decide, Text.unbroken_decimal number⟩
  · cases work with
    | plain finite => exact worded _ finite
    | returned start target home loops =>
        rw [content, Text.unbroken_append, Text.unbroken_append]
        exact ⟨⟨worded (.xfer start target) trivial, by decide⟩,
          Machine.unbroken_returnNote home loops⟩
    | peeled sheet active =>
        simp only [content, Text.unbroken_append, Text.unbroken_decimal]
        decide
    | peeledAll sheet active =>
        simp only [content, Text.unbroken_append, Text.unbroken_decimal, Text.unbroken_bracketed]
        decide

theorem semicolon_not_mem_words {line : Line} (told : line.Told) : ';' ∉ line.words := by
  cases line with
  | version number => exact List.not_mem_nil
  | comment text => exact List.not_mem_nil
  | instruction content note =>
      intro inside
      rcases Instruction.mem_text told.finite inside with space | letter
      · exact absurd space (by decide)
      · exact absurd letter (by decide)

theorem remark_semicolon (line : Line) :
    line.remark = [] ∨ ∃ rest, line.remark = ';' :: rest := by
  cases line with
  | version number => exact .inr ⟨_, rfl⟩
  | comment text => exact .inr ⟨_, rfl⟩
  | instruction content note =>
      cases note with
      | none => exact .inl rfl
      | some note => exact .inr ⟨_, rfl⟩

/-- The words of a line are what stands before its first semicolon. -/
theorem takeWhile_content {line : Line} (told : line.Told) :
    line.content.toList.takeWhile (· ≠ ';') = line.words := by
  have words : ∀ character ∈ line.words, (character ≠ ';' : Bool) = true := by
    intro character member
    have differs : character ≠ ';' := by
      rintro rfl
      exact semicolon_not_mem_words told member
    simpa using differs
  rw [toList_content, List.takeWhile_append_of_pos words]
  rcases remark_semicolon line with none | ⟨rest, some⟩
  · simp [none]
  · simp [some]

/-- Lines that are told apart have different texts. -/
theorem content_injective {first second : Line} (told : first.Told) (otherTold : second.Told)
    (same : first.content = second.content) : first = second := by
  have texts := congrArg String.toList same
  have words : first.words = second.words := by
    rw [← takeWhile_content told, ← takeWhile_content otherTold, texts]
  have remarks : first.remark = second.remark := by
    rw [toList_content, toList_content, words] at texts
    exact List.append_cancel_left texts
  cases first with
  | version number =>
      cases second with
      | version other =>
          have digits := List.append_cancel_left (List.cons.inj (List.cons.inj remarks).2).2
          rw [Text.decimal_injective (String.ext digits)]
      | comment text =>
          obtain ⟨rest, spaced⟩ := otherTold.toList_comment
          rw [remark, remark, spaced] at remarks
          exact absurd (List.cons.inj (List.cons.inj remarks).2).1 (by decide)
      | instruction content note => exact absurd words.symm (Instruction.text_ne_nil content)
  | comment text =>
      cases second with
      | version other =>
          obtain ⟨rest, spaced⟩ := told.toList_comment
          rw [remark, remark, spaced] at remarks
          exact absurd (List.cons.inj (List.cons.inj remarks).2).1 (by decide)
      | comment other => rw [String.ext (List.cons.inj remarks).2]
      | instruction content note => exact absurd words.symm (Instruction.text_ne_nil content)
  | instruction content note =>
      cases second with
      | version other => exact absurd words (Instruction.text_ne_nil content)
      | comment other => exact absurd words (Instruction.text_ne_nil content)
      | instruction other otherNote =>
          rw [Instruction.text_injective told.finite otherTold.finite (String.ext words)]
          cases note <;> cases otherNote
          · rfl
          · cases remarks
          · cases remarks
          · rw [String.ext (List.cons.inj remarks).2]

theorem toList_render_cons (line : Line) (rest : List Line) :
    (render (line :: rest)).toList = line.content.toList ++ '\n' :: (render rest).toList := by
  simp [render, text, String.toList_join]

theorem splitOn_render {lines : List Line}
    (unbroken : ∀ line ∈ lines, Text.Unbroken line.content) :
    (render lines).toList.splitOn '\n' = lines.map (·.content.toList) ++ [[]] := by
  induction lines with
  | nil => rfl
  | cons line rest ih =>
      rw [List.forall_mem_cons] at unbroken
      rw [toList_render_cons, List.splitOn_append_cons_self_of_not_mem unbroken.1,
        ih unbroken.2, List.map_cons, List.cons_append]

/-- The text of a knitout tells its lines, of which any can be a version. -/
theorem lines_eq_of_render_eq {first second : List Line} (told : ∀ line ∈ first, line.Told)
    (otherTold : ∀ line ∈ second, line.Told) (same : render first = render second) :
    first = second := by
  have texts := congrArg (fun text => text.toList.splitOn '\n') same
  simp only [splitOn_render fun line member => (told line member).unbroken,
    splitOn_render fun line member => (otherTold line member).unbroken] at texts
  have contents := List.append_cancel_right texts
  -- The induction is on the lists of text lines, so the whole texts must not stand in its way.
  clear same texts
  induction first generalizing second with
  | nil => exact (List.map_eq_nil_iff.mp contents.symm).symm
  | cons line rest ih =>
      cases second with
      | nil => exact absurd contents (by simp)
      | cons other others =>
          rw [List.forall_mem_cons] at told otherTold
          rw [List.map_cons, List.map_cons, List.cons.injEq] at contents
          rw [content_injective told.1 otherTold.1 (String.ext contents.1),
            ih told.2 otherTold.2 contents.2]

theorem lines_eq_of_render_eq_returned :
    let first : List Line := [.header, .plain (.out []), .plain (.rack .zero),
      .instruction (.xfer (.back 1) (Needle.back 1).opposite)
        (some (Machine.returnNote (.back 1) [⟨3⟩]))]
    let second : List Line := [.version 2, .plain (.out []), .plain (.rack .zero),
      .instruction (.xfer (.back 1) (.front 1)) (some "Return loops [3] on b1 to f1")]
    (∀ line ∈ first, line.Told) ∧ (∀ line ∈ second, line.Told) ∧ render first = render second ∧
      first = second := by
  intro first second
  have note : Machine.returnNote (.back 1) [⟨3⟩] = "Return loops [3] on b1 to f1" := by decide
  have told : ∀ line ∈ first, line.Told := by
    simp only [first, List.forall_mem_cons]
    exact ⟨.inl ⟨2, rfl⟩, .inr (.plain trivial), .inr (.plain rfl), .inr (.returned _ _ _ _),
      List.forall_mem_nil _⟩
  have same : render first = render second := by
    simp only [first, second, note]
    rfl
  have otherTold : ∀ line ∈ second, line.Told := by
    simp only [second, ← note, List.forall_mem_cons]
    exact ⟨.inl ⟨2, rfl⟩, .inr (.plain trivial), .inr (.plain rfl), .inr (.returned _ _ _ _),
      List.forall_mem_nil _⟩
  exact ⟨told, otherTold, same, lines_eq_of_render_eq told otherTold same⟩

end Line

end VBed
