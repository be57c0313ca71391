import VBed.Proofs.NeedleNames
import VBed.Proofs.SheetAddresses

/-!
The notation of sheets as a grammar. A sheet is named by its number, alone or with the gauge.
Reading finds the gauge behind the first `:g`, which stands in no number, so a text has at most one
meaning; whether the sheet exists is asked once the text is understood.
-/

namespace VBed.SheetId

inductive Names : List Char → Nat → Option Nat → Prop
  | alone {number : List Char} {sheet : Nat} (spells : Text.Spells number sheet) :
      Names ('s' :: number) sheet none
  | atGauge {number other : List Char} {sheet gauge : Nat} (spells : Text.Spells number sheet)
      (spellsGauge : Text.Spells other gauge) :
      Names ('s' :: number ++ ':' :: 'g' :: other) sheet (some gauge)

def Denotes (text : String) (sheet : Nat) (gauge : Option Nat) : Prop :=
  ∃ name, Text.Encloses text.toList name ∧ Names name sheet gauge

variable {text : String} {name body left right : List Char} {sheet : Nat} {gauge : Option Nat}

theorem eq_append_of_splitGauge (found : splitGauge body = some (left, right)) :
    body = left ++ ':' :: 'g' :: right := by
  fun_induction splitGauge body generalizing left with
  | case1 rest =>
      cases found
      rfl
  | case2 character rest _ ih =>
      obtain ⟨⟨others, behind⟩, split, same⟩ := Option.map_eq_some_iff.mp found
      cases same
      rw [ih split, List.cons_append]
  | case3 => cases found

theorem splitGauge_append (plain : ∀ character ∈ left, character ≠ ':') :
    splitGauge (left ++ ':' :: 'g' :: right) = some (left, right) := by
  induction left with
  | nil => rfl
  | cons character rest ih =>
      have goesOn := ih fun other member => plain other (List.mem_cons_of_mem character member)
      have first : character ≠ ':' := plain character (List.mem_cons_self ..)
      rw [List.cons_append, splitGauge, goesOn]
      · rfl
      · exact fun _ same _ => first same

theorem splitGauge_eq_none (plain : ∀ character ∈ body, character ≠ ':') :
    splitGauge body = none := by
  cases found : splitGauge body with
  | none => rfl
  | some parts =>
      have colon : ':' ∈ body := by
        rw [eq_append_of_splitGauge found]
        simp
      exact absurd rfl (plain ':' colon)

theorem ne_colon_of_spells {number : List Char} {word : Nat} (spells : Text.Spells number word)
    {character : Char} (member : character ∈ number) : character ≠ ':' := by
  rintro rfl
  exact absurd (spells.character member) (by decide)

theorem Names.visible (names : Names name sheet gauge) {character : Char}
    (member : character ∈ name) : Text.isBlank character = false := by
  cases names with
  | alone spells =>
      rcases List.mem_cons.mp member with rfl | spelled
      · decide
      · exact spells.visible spelled
  | atGauge spells spellsGauge =>
      rcases List.mem_append.mp member with before | behind
      · rcases List.mem_cons.mp before with rfl | spelled
        · decide
        · exact spells.visible spelled
      · simp only [List.mem_cons] at behind
        rcases behind with rfl | rfl | spelled
        · decide
        · decide
        · exact spellsGauge.visible spelled

theorem parts?_eq_some : parts? text = some (sheet, gauge) ↔ Denotes text sheet gauge := by
  constructor
  · intro found
    refine ⟨_, Text.encloses_trim text.toList, ?_⟩
    rw [parts?] at found
    split at found
    · rename_i body trimmed
      rw [trimmed]
      split at found
      · rename_i number other split
        obtain ⟨_, read, rest⟩ := Option.bind_eq_some_iff.mp found
        obtain ⟨_, readGauge, same⟩ := Option.bind_eq_some_iff.mp rest
        cases same
        rw [eq_append_of_splitGauge split]
        exact .atGauge (Text.word?_eq_some_iff_spells.mp read)
          (Text.word?_eq_some_iff_spells.mp readGauge)
      · obtain ⟨_, read, same⟩ := Option.map_eq_some_iff.mp found
        cases same
        exact .alone (Text.word?_eq_some_iff_spells.mp read)
    · cases found
  · rintro ⟨name, encloses, names⟩
    rw [parts?, encloses.trim_eq fun _ => names.visible]
    cases names with
    | alone spells =>
        simp only [splitGauge_eq_none fun _ => ne_colon_of_spells spells,
          Text.word?_eq_some_iff_spells.mpr spells, Option.map_some]
    | atGauge spells spellsGauge =>
        simp only [List.cons_append, splitGauge_append fun _ => ne_colon_of_spells spells,
          Text.word?_eq_some_iff_spells.mpr spells, Text.word?_eq_some_iff_spells.mpr spellsGauge]
        rfl

structure Located (sheet gauge : Nat) (result : Except Fault SheetId) : Prop where
  found : 1 ≤ gauge → gauge ≤ maxGauge → sheet < gauge → result = .ok ⟨sheet, gauge⟩
  noGauge : ¬(1 ≤ gauge ∧ gauge ≤ maxGauge) →
    result = .error (.gaugeOutOfRange gauge maxGauge)
  noSheet : 1 ≤ gauge → gauge ≤ maxGauge → gauge ≤ sheet →
    result = .error (.sheetOutOfRange sheet gauge)

theorem of_eq_ok {gauge : Nat} {id : SheetId} :
    of sheet gauge = .ok id ↔
      (1 ≤ gauge ∧ gauge ≤ maxGauge ∧ sheet < gauge) ∧ ⟨sheet, gauge⟩ = id := by
  rw [of, then_eq_ok, Machine.checkSheet_eq_ok, pure_eq_ok]

theorem located_of (sheet gauge : Nat) : Located sheet gauge (of sheet gauge) where
  found positive bounded exist := of_eq_ok.mpr ⟨⟨positive, bounded, exist⟩, rfl⟩
  noGauge outside := by
    have refused : checkGauge gauge = .error (.gaugeOutOfRange gauge maxGauge) :=
      if_pos (by omega)
    rw [of, checkSheet, refused]
    rfl
  noSheet positive bounded outside := by
    have passed : checkGauge gauge = .ok () := Machine.checkGauge_eq_ok.mpr ⟨positive, bounded⟩
    have refused : checkSheet sheet gauge = .error (.sheetOutOfRange sheet gauge) := by
      rw [checkSheet, passed]
      exact if_pos outside
    rw [of, refused]
    rfl

theorem ofText_of_denotes (denotes : Denotes text sheet gauge) (defaultGauge : Nat) :
    ofText text defaultGauge = of sheet (gauge.getD defaultGauge) := by
  rw [ofText, parts?_eq_some.mpr denotes]

theorem ofText_of_meaningless (meaningless : ¬∃ sheet gauge, Denotes text sheet gauge)
    (defaultGauge : Nat) : ofText text defaultGauge = .error (.invalidSheet text) := by
  cases parts : parts? text with
  | none => rw [ofText, parts]
  | some meaning =>
      exact absurd ⟨meaning.1, meaning.2, parts?_eq_some.mp parts⟩ meaningless

theorem spells_toDigits {number : Nat} (word : number < Text.wordCount) :
    Text.Spells (Nat.toDigits 10 number) number :=
  Text.word?_eq_some_iff_spells.mp (Text.word?_toDigits word)

theorem denotes_text {id : SheetId} (sheetWord : id.sheet < Text.wordCount)
    (gaugeWord : id.gauge < Text.wordCount) : Denotes id.text id.sheet (some id.gauge) := by
  refine ⟨id.text.toList, ⟨[], [], by simp, by simp⟩, ?_⟩
  have names := Names.atGauge (spells_toDigits sheetWord) (spells_toDigits gaugeWord)
  simpa [text, Text.decimal] using names

/-- A text that names no sheet is refused as it was given, and one that names a sheet means that
sheet, at the gauge it names or else at the default one. -/
structure ReadExactly (text : String) (defaultGauge : Nat) : Prop where
  invalid : (∃ fault, ofText text defaultGauge = .error fault ∧ fault.code = "INVALID_SHEET") ↔
    ¬∃ sheet gauge, Denotes text sheet gauge
  quoted : (¬∃ sheet gauge, Denotes text sheet gauge) →
    ofText text defaultGauge = .error (.invalidSheet text)
  named : ∀ sheet gauge, Denotes text sheet gauge →
    Located sheet (gauge.getD defaultGauge) (ofText text defaultGauge)

theorem Located.code_ne {gauge : Nat} {result : Except Fault SheetId}
    (located : Located sheet gauge result) {fault : Fault} (refused : result = .error fault) :
    fault.code ≠ "INVALID_SHEET" := by
  by_cases valid : 1 ≤ gauge ∧ gauge ≤ maxGauge
  · by_cases exist : sheet < gauge
    · cases refused.symm.trans (located.found valid.1 valid.2 exist)
    · cases refused.symm.trans (located.noSheet valid.1 valid.2 (Nat.le_of_not_lt exist))
      simp [Fault.code]
  · cases refused.symm.trans (located.noGauge valid)
    simp [Fault.code]

theorem ofText_text {gauge : Nat} {id : SheetId} (made : of sheet gauge = .ok id)
    (defaultGauge : Nat) : ofText id.text defaultGauge = .ok id := by
  obtain ⟨⟨_, bounded, exist⟩, rfl⟩ := of_eq_ok.mp made
  have gaugeWord : gauge < Text.wordCount := Nat.lt_of_le_of_lt bounded (by decide)
  rw [ofText_of_denotes (denotes_text (Nat.lt_trans exist gaugeWord) gaugeWord), Option.getD_some,
    made]

theorem sheets_read_exactly :
    (∀ text defaultGauge, ReadExactly text defaultGauge) ∧
      ∀ sheet gauge id defaultGauge, of sheet gauge = .ok id →
        ofText id.text defaultGauge = .ok id := by
  refine ⟨fun text defaultGauge => ⟨⟨?_, fun meaningless => ?_⟩, fun meaningless => ?_, ?_⟩,
    fun sheet gauge id defaultGauge made => ofText_text made defaultGauge⟩
  · rintro ⟨fault, refused, code⟩ ⟨sheet, gauge, denotes⟩
    rw [ofText_of_denotes denotes] at refused
    exact (located_of sheet _).code_ne refused code
  · exact ⟨_, ofText_of_meaningless meaningless defaultGauge, rfl⟩
  · exact ofText_of_meaningless meaningless defaultGauge
  · intro sheet gauge denotes
    rw [ofText_of_denotes denotes]
    exact located_of sheet _

/-- The gauge that a text names goes before the default one, a text with two gauges has no meaning,
and a missing gauge is told before a missing sheet. -/
theorem sheets_read_exactly_named :
    Denotes "\u2003s+1:g04\n" 1 (some 4) ∧
      ofText "\u2003s+1:g04\n" 9 = .ok ⟨1, 4⟩ ∧
      of 1 4 = .ok ⟨1, 4⟩ ∧ ofText (SheetId.text ⟨1, 4⟩) 9 = .ok ⟨1, 4⟩ ∧
      Denotes "s12" 12 none ∧ ofText "s12" 11 = .error (.gaugeOutOfRange 11 maxGauge) ∧
      ofText "s12" 10 = .error (.sheetOutOfRange 12 10) ∧
      ¬∃ sheet gauge, Denotes "s1:g2:g3" sheet gauge := by
  obtain ⟨texts, written⟩ := sheets_read_exactly
  have named : Denotes "\u2003s+1:g04\n" 1 (some 4) := parts?_eq_some.mp (by decide +kernel)
  have alone : Denotes "s12" 12 none := parts?_eq_some.mp (by decide +kernel)
  have made : of 1 4 = .ok ⟨1, 4⟩ := rfl
  refine ⟨named, ?_, made, written 1 4 _ 9 made, alone, ?_, ?_, ?_⟩
  · exact ((texts _ 9).named 1 (some 4) named).found (by decide) (by decide) (by decide)
  · exact ((texts _ 11).named 12 none alone).noGauge (by decide)
  · exact ((texts _ 10).named 12 none alone).noSheet (by decide) (by decide) (by decide)
  · exact (texts "s1:g2:g3" 1).invalid.mp ⟨.invalidSheet "s1:g2:g3", by decide +kernel, rfl⟩

end VBed.SheetId
