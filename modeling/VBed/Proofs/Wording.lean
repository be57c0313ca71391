import Mathlib.Logic.Function.Basic
import VBed.Machine.Reset
import VBed.Proofs.Shortest

/-!
The wording of knitout. An instruction is a row of words parted by single spaces, and no word has a
space, a semicolon or a line end in it, so its text gives the words back and they give the
instruction. A set without carriers still counts as one word, which is empty.
-/

namespace VBed

namespace Text

def isWordChar (character : Char) : Bool :=
  character.isLower || character.isDigit || "+-.".toList.contains character

def IsWord (text : String) : Prop :=
  text.toList.all isWordChar = true

instance (text : String) : Decidable (IsWord text) :=
  inferInstanceAs (Decidable (_ = true))

theorem isWord_iff {text : String} :
    IsWord text ↔ ∀ character ∈ text.toList, isWordChar character = true :=
  List.all_eq_true

theorem isWordChar_of_isDigit {character : Char} (digit : character.isDigit = true) :
    isWordChar character = true := by
  simp [isWordChar, digit]

theorem mem_intercalate {separator : List Char} {texts : List (List Char)} {character : Char}
    (member : character ∈ separator.intercalate texts) :
    character ∈ separator ∨ ∃ text ∈ texts, character ∈ text := by
  induction texts with
  | nil => simp [List.intercalate] at member
  | cons first rest ih =>
      cases rest with
      | nil => exact .inr ⟨first, by simp, by simpa [List.intercalate] using member⟩
      | cons second others =>
          rw [List.intercalate_cons_cons, List.mem_append, List.mem_append] at member
          rcases member with (here | between) | later
          · exact .inr ⟨first, by simp, here⟩
          · exact .inl between
          · rcases ih later with between | ⟨text, found, inside⟩
            · exact .inl between
            · exact .inr ⟨text, by simp [found], inside⟩

/-- The last word of a row can be a row of words itself. -/
theorem intercalate_nested (before after : List String) (some : after ≠ []) :
    " ".intercalate (before ++ [" ".intercalate after]) = " ".intercalate (before ++ after) := by
  apply String.ext
  simp only [String.toList_intercalate, List.map_append, List.map_cons, List.map_nil]
  induction before with
  | nil => simp [List.intercalate]
  | cons first rest ih =>
      rw [List.map_cons, List.cons_append, List.cons_append,
        List.intercalate_cons_of_ne_nil (by simp), List.intercalate_cons_of_ne_nil (by simp [some]),
        ih]

end Text

@[simp] theorem Direction.isWord_text (direction : Direction) : Text.IsWord direction.text := by
  cases direction <;> decide

theorem Direction.text_injective : Function.Injective Direction.text := by
  intro first second same
  cases first <;> cases second <;> first | rfl | exact absurd same (by decide)

@[simp] theorem Needle.isWord_text (needle : Needle) : Text.IsWord needle.text := by
  refine Text.isWord_iff.mpr fun character inside => ?_
  rw [toList_text, List.mem_append] at inside
  rcases inside with marked | digit
  · rcases mem_mark marked with rfl | rfl | rfl <;> decide
  · exact Text.isWordChar_of_isDigit (Text.isDigit_of_mem digit)

theorem Binary64.isWord_plainText {number : Binary64} (finite : number.isFinite = true) :
    Text.IsWord number.plainText := by
  refine Text.isWord_iff.mpr fun character inside => ?_
  rcases mem_plainText finite inside with digit | rfl | rfl
  · exact Text.isWordChar_of_isDigit digit
  · decide
  · decide

namespace CarrierSet

def tokens (carriers : CarrierSet) : List String :=
  if carriers = [] then [""] else carriers.map CarrierId.text

theorem tokens_ne_nil (carriers : CarrierSet) : tokens carriers ≠ [] := by
  cases carriers <;> simp [tokens]

theorem text_eq (carriers : CarrierSet) : text carriers = " ".intercalate (tokens carriers) := by
  cases carriers <;> simp [text, tokens]

theorem isWord_tokens (carriers : CarrierSet) : ∀ token ∈ tokens carriers, Text.IsWord token := by
  intro token member
  rw [tokens] at member
  split at member
  · rw [List.mem_singleton.mp member]
    decide
  · obtain ⟨carrier, _, same⟩ := List.mem_map.mp member
    rw [← same, Text.isWord_iff, CarrierId.text, Text.decimal, String.toList_ofList]
    exact fun _ digit => Text.isWordChar_of_isDigit (Text.isDigit_of_mem digit)

theorem tokens_injective : Function.Injective tokens := by
  have filled : ∀ id : CarrierId, id.text ≠ "" := by
    intro id empty
    have digits := congrArg String.toList empty
    rw [CarrierId.text, Text.decimal, String.toList_ofList] at digits
    exact Nat.toDigits_ne_nil digits
  have texts : ∀ first second : CarrierId, first.text = second.text → first = second := by
    rintro ⟨first⟩ ⟨second⟩ same
    have numbers : first = second := Text.decimal_injective same
    rw [numbers]
  intro first second same
  cases first with
  | nil =>
      cases second with
      | nil => rfl
      | cons carrier rest =>
          simp only [tokens, if_true, List.cons_ne_nil, if_false, List.map_cons,
            List.cons.injEq] at same
          exact absurd same.1.symm (filled carrier)
  | cons carrier rest =>
      cases second with
      | nil =>
          simp only [tokens, if_true, List.cons_ne_nil, if_false, List.map_cons,
            List.cons.injEq] at same
          exact absurd same.1 (filled carrier)
      | cons other others =>
          simp only [tokens, List.cons_ne_nil, if_false] at same
          exact (List.map_inj_right (fun first second => texts first second)).mp same

end CarrierSet

namespace Instruction

def tokens : Instruction → List String
  | knit direction needle carriers =>
      ["knit", direction.text, needle.text] ++ CarrierSet.tokens carriers
  | tuck direction needle carriers =>
      ["tuck", direction.text, needle.text] ++ CarrierSet.tokens carriers
  | split direction start target carriers =>
      ["split", direction.text, start.text, target.text] ++ CarrierSet.tokens carriers
  | drop needle => ["drop", needle.text]
  | xfer start target => ["xfer", start.text, target.text]
  | rack racking => ["rack", racking.plainText]
  | bringIn carriers => ["in"] ++ CarrierSet.tokens carriers
  | inhook carriers => ["inhook"] ++ CarrierSet.tokens carriers
  | releasehook carriers => ["releasehook"] ++ CarrierSet.tokens carriers
  | out carriers => ["out"] ++ CarrierSet.tokens carriers
  | outhook carriers => ["outhook"] ++ CarrierSet.tokens carriers

theorem text_eq (instruction : Instruction) :
    instruction.text = " ".intercalate instruction.tokens := by
  have nested : ∀ before carriers, " ".intercalate (before ++ [CarrierSet.text carriers]) =
      " ".intercalate (before ++ CarrierSet.tokens carriers) := by
    intro before carriers
    rw [CarrierSet.text_eq, Text.intercalate_nested before _ (CarrierSet.tokens_ne_nil carriers)]
  cases instruction with
  | drop needle => rfl
  | xfer start target => rfl
  | rack racking => rfl
  | knit direction needle carriers => exact nested ["knit", direction.text, needle.text] carriers
  | tuck direction needle carriers => exact nested ["tuck", direction.text, needle.text] carriers
  | split direction start target carriers =>
      exact nested ["split", direction.text, start.text, target.text] carriers
  | bringIn carriers => exact nested ["in"] carriers
  | inhook carriers => exact nested ["inhook"] carriers
  | releasehook carriers => exact nested ["releasehook"] carriers
  | out carriers => exact nested ["out"] carriers
  | outhook carriers => exact nested ["outhook"] carriers

def IsFinite : Instruction → Prop
  | rack racking => racking.isFinite = true
  | _ => True

theorem tokens_ne_nil (instruction : Instruction) : instruction.tokens ≠ [] := by
  cases instruction <;> simp [tokens]

theorem isWord_tokens {instruction : Instruction} (finite : instruction.IsFinite) :
    ∀ token ∈ instruction.tokens, Text.IsWord token := by
  have names : ∀ name ∈ ["knit", "tuck", "split", "drop", "xfer", "rack", "in", "inhook",
      "releasehook", "out", "outhook"], Text.IsWord name := by
    decide +kernel
  simp only [List.forall_mem_cons] at names
  cases instruction with
  | rack racking =>
      have racked := Binary64.isWord_plainText finite
      simp [tokens, names, racked]
  | drop needle => simp [tokens, names]
  | xfer start target => simp [tokens, names]
  | _ =>
      rw [tokens, List.forall_mem_append]
      exact ⟨by simp [names], CarrierSet.isWord_tokens _⟩

theorem tokens_injective {first second : Instruction} (finite : first.IsFinite)
    (otherFinite : second.IsFinite) (same : first.tokens = second.tokens) : first = second := by
  cases first with
  | rack racking =>
      cases second with
      | rack other =>
          simp only [tokens, List.cons.injEq, true_and, and_true] at same
          rw [Binary64.plainText_injective finite otherFinite same]
      | _ => simp [tokens] at same
  | _ =>
      cases second with
      | rack other => simp [tokens] at same
      | _ =>
          -- Instructions of two kinds differ in their first word.
          simp_all [tokens, Direction.text_injective.eq_iff, Needle.text_injective.eq_iff,
            CarrierSet.tokens_injective.eq_iff]

/-- Finite instructions with one text are the same. -/
theorem text_injective {first second : Instruction} (finite : first.IsFinite)
    (otherFinite : second.IsFinite) (same : first.text = second.text) : first = second := by
  have unspaced : ∀ {instruction : Instruction}, instruction.IsFinite →
      ∀ word ∈ instruction.tokens.map String.toList, ' ' ∉ word := by
    intro instruction finite word member inside
    obtain ⟨token, found, same⟩ := List.mem_map.mp member
    rw [← same] at inside
    exact absurd (Text.isWord_iff.mp (isWord_tokens finite token found) ' ' inside) (by decide)
  have filled : ∀ instruction : Instruction, instruction.tokens.map String.toList ≠ [] := by
    intro instruction
    simp [tokens_ne_nil]
  have texts := congrArg String.toList same
  rw [text_eq, text_eq, String.toList_intercalate, String.toList_intercalate] at texts
  -- No word has a space in it, so a text that is split at its spaces gives the words back.
  have words := congrArg (List.splitOn ' ') texts
  have space : " ".toList = [' '] := rfl
  rw [space, List.splitOn_intercalate ' ' (unspaced finite) (filled first),
    List.splitOn_intercalate ' ' (unspaced otherFinite) (filled second)] at words
  exact tokens_injective finite otherFinite ((List.map_inj_right fun _ _ => String.ext).mp words)

end Instruction

end VBed
