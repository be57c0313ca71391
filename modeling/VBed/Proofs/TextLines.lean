import VBed.Proofs.Rendering

/-!
The knitout of a run as lines of text. Operations that are not comments give lines of work, which
have no line end in them, so a run gives one text line for each line unless the text of a comment
has a line end. What stands behind that line end is a text line of its own, and can be the text of
an instruction that the machine never carried out.
-/

namespace VBed

namespace Machine

def Answers {α : Type} (good : α → Prop) (action : Action α) : Prop :=
  ∀ machine answer next, action machine = .ok answer next → good answer

section Answering

variable {α β : Type} {good : β → Prop}

theorem answers_any (action : Action α) : Answers (fun _ => True) action :=
  fun _ _ _ _ => trivial

theorem answers_pure {answer : β} (holds : good answer) : Answers good (pure answer) := by
  intro machine other next ran
  cases ran
  exact holds

theorem answers_bind {middle : α → Prop} {first : Action α} {second : α → Action β}
    (before : Answers middle first)
    (after : ∀ answer, middle answer → Answers good (second answer)) :
    Answers good (first >>= second) := by
  intro machine answer next ran
  obtain ⟨value, between, ranFirst, ranSecond⟩ := run_bind_eq_ok.mp ran
  exact after value (before machine value between ranFirst) between answer next ranSecond

theorem answers_then {first : Action α} {second : α → Action β}
    (after : ∀ answer, Answers good (second answer)) : Answers good (first >>= second) :=
  answers_bind (answers_any first) fun answer _ => after answer

theorem answers_mapM {action : α → Action β} (each : ∀ element, Answers good (action element))
    (elements : List α) : Answers (∀ answer ∈ ·, good answer) (elements.mapM action) := by
  induction elements with
  | nil => exact answers_pure (by simp)
  | cons element rest ih =>
      rw [List.mapM_cons]
      refine answers_bind (each element) fun first here => ?_
      refine answers_bind ih fun others there => answers_pure ?_
      exact List.forall_mem_cons.mpr ⟨here, there⟩

end Answering

abbrev Works (action : Action (List Line)) : Prop :=
  Answers (∀ line ∈ ·, line.OfWork) action

theorem answers_setRacking (racking : Binary64) :
    Answers (fun _ => racking.isFinite = true) (setRacking racking) := by
  intro machine changed next ran
  obtain ⟨_, between, asked, _⟩ := run_bind_eq_ok.mp ran
  cases checked : machine.checkRacking racking with
  | error fault =>
      rw [ask_error checked] at asked
      cases asked
  | ok _ =>
      rw [checkRacking, refusal_eq_ok] at checked
      have finite := checked.1
      simp only [Bool.or_eq_true, Bool.not_eq_true', not_or, Bool.not_eq_false] at finite
      exact finite.1

theorem works_nil : Works (pure []) :=
  answers_pure (by simp)

theorem works_append {first second : Action (List Line)} (before : Works first)
    (after : Works second) :
    Works (do return (← first) ++ (← second)) := by
  refine answers_bind before fun lines here => ?_
  refine answers_bind after fun others there => answers_pure ?_
  exact List.forall_mem_append.mpr ⟨here, there⟩

theorem works_straightenFor (needles : List Needle) : Works (straightenFor needles) := by
  rw [straightenFor]
  split
  · exact works_nil
  · refine answers_bind (answers_setRacking .zero) fun changed finite => answers_pure ?_
    split
    · exact List.forall_mem_singleton.mpr (.plain finite)
    · simp

theorem answers_moveAcross (needle : Needle) : Answers Line.OfWork (moveAcross needle) :=
  answers_then fun _ => answers_pure (.plain trivial)

theorem answers_returnLoops (start : Needle) : Answers Line.OfWork (returnLoops start) :=
  answers_then fun _ => answers_then fun _ => answers_pure (.returned _ _ _ _)

section Peels

variable {active : String} (plan : PeelPlan)
  (headed : ∀ sheet : Nat, Line.OfWork
    (.comment (" Peel sheet " ++ Text.decimal sheet ++ " relative to " ++ active)))

include headed

theorem works_peelSheet (sheet : Nat) : Works (peelSheet plan active sheet) := by
  refine answers_then fun machine => answers_bind (answers_mapM answers_moveAcross _) ?_
  exact fun moves each => answers_pure (List.forall_mem_cons.mpr ⟨headed sheet, each⟩)

theorem works_carryOut : Works (carryOut plan active) := by
  refine answers_then fun machine => ?_
  refine answers_bind (answers_mapM (works_peelSheet plan headed) _) fun sheets each => ?_
  refine answers_pure fun line member => ?_
  obtain ⟨lines, found, inside⟩ := List.mem_flatten.mp member
  exact each lines found line inside

theorem works_peelBy : Works (peelBy plan active) :=
  answers_then fun _ => works_append (works_straightenFor _) (works_carryOut plan headed)

theorem works_resetBy (chosen : Nat → Bool) : Works (resetBy plan active chosen) := by
  refine answers_then fun returns => answers_then fun _ => ?_
  refine answers_bind (works_straightenFor _) fun first straightened => ?_
  refine answers_bind (works_carryOut plan headed) fun second carried => ?_
  refine answers_bind (answers_mapM answers_returnLoops _) fun third returned => answers_pure ?_
  exact List.forall_mem_append.mpr ⟨List.forall_mem_append.mpr ⟨straightened, carried⟩, returned⟩

end Peels

end Machine

namespace Operation

open Machine

theorem works_emit {α : Type} {work : Action α} {instruction : Instruction}
    (finite : instruction.IsFinite) : Works (emit work instruction) :=
  answers_then fun _ => answers_pure (List.forall_mem_singleton.mpr (.plain finite))

theorem works_emitPass {α : Type} {direction : Option Direction} {work : Action α}
    (instruction : Direction → Instruction) (finite : ∀ pass, (instruction pass).IsFinite) :
    Works (emitPass direction work instruction) :=
  answers_then fun _ => works_emit (finite _)

theorem works_silently (work : Action Unit) : Works (silently work) :=
  answers_then fun _ => works_nil

theorem works_emitRack (racking : Binary64) : Works (emitRack (setRacking racking) racking) := by
  refine answers_bind (answers_setRacking racking) fun changed finite => answers_pure ?_
  split
  · exact List.forall_mem_singleton.mpr (.plain finite)
  · simp

/-- An operation gives lines of work, unless it is a comment. -/
theorem works_apply {operation : Operation} (silent : ∀ text, operation ≠ .comment text) :
    Works operation.apply := by
  cases operation with
  | comment text => exact absurd rfl (silent text)
  | knit needle carriers direction =>
      exact works_emitPass (.knit · needle carriers) fun _ => trivial
  | tuck needle carriers direction =>
      exact works_emitPass (.tuck · needle carriers) fun _ => trivial
  | split start target carriers direction =>
      exact works_emitPass (.split · start target carriers) fun _ => trivial
  | align front back => exact works_emitRack _
  | rack racking => exact works_emitRack racking
  | peel sheet =>
      have peels : Answers (fun answer => ∀ line ∈ answer.1, line.OfWork) (Machine.peel sheet) :=
        answers_then fun plan =>
          answers_bind (works_peelBy plan fun number => .peeled number sheet)
            fun lines each => answers_pure each
      exact answers_bind peels fun answer each => answers_pure each
  | peelSheets sheets =>
      exact answers_then fun plan => works_peelBy plan fun number => .peeledAll number sheets
  | reset sheet =>
      exact answers_then fun _ => answers_then fun plan =>
        works_resetBy plan (fun number => .peeled number sheet) _
  | resetSheets sheets =>
      exact answers_then fun _ => answers_then fun plan =>
        works_resetBy plan (fun number => .peeledAll number sheets) _
  | _ => first | exact works_emit trivial | exact works_silently _

end Operation

/-- The lines of a run are lines of work and the comments among its operations. -/
theorem lines_of_runAll {operations : List Operation} {machine final : Machine}
    {lines : List Line} (ran : Program.runAll operations machine = .ok lines final) :
    (∀ line ∈ lines, line.OfWork ∨ ∃ text, .comment text ∈ operations ∧ line = .comment text) ∧
      ∀ text, .comment text ∈ operations → .comment text ∈ lines := by
  induction operations generalizing machine lines with
  | nil =>
      cases ran
      simp
  | cons operation rest ih =>
      obtain ⟨first, between, here, later⟩ := run_bind_eq_ok.mp ran
      obtain ⟨others, last, there, same⟩ := run_bind_eq_ok.mp later
      cases same
      obtain ⟨known, told⟩ := ih there
      have others_known : ∀ line ∈ others, line.OfWork ∨
          ∃ text, .comment text ∈ operation :: rest ∧ line = .comment text := by
        intro line member
        rcases known line member with work | ⟨text, found, same⟩
        · exact .inl work
        · exact .inr ⟨text, List.mem_cons_of_mem _ found, same⟩
      -- Only a comment gives a line that is not one of work, and it gives that line alone.
      by_cases silent : ∀ text, operation ≠ .comment text
      · have works := Operation.works_apply silent machine first between here
        refine ⟨fun line member => ?_, fun text member => ?_⟩
        · rcases List.mem_append.mp member with inFirst | inOthers
          · exact .inl (works line inFirst)
          · exact others_known line inOthers
        · rcases List.mem_cons.mp member with same | found
          · exact absurd same.symm (silent text)
          · exact List.mem_append_right _ (told text found)
      · obtain ⟨spoken, same⟩ : ∃ text, operation = .comment text := by simpa using silent
        subst same
        cases here
        refine ⟨fun line member => ?_, fun text member => ?_⟩
        · rcases List.mem_append.mp member with inFirst | inOthers
          · exact .inr ⟨spoken, List.mem_cons_self, List.mem_singleton.mp inFirst⟩
          · exact others_known line inOthers
        · rcases List.mem_cons.mp member with same | found
          · cases same
            simp
          · exact List.mem_append_right _ (told text found)

namespace Line

/-- The text of lines has one text line for each of them, and what a text line has before its
first semicolon is the text of the line's instruction, unless it starts with the semicolon. -/
structure Aligned (lines : List Line) : Prop where
  parts : (render lines).toList.splitOn '\n' = lines.map (·.content.toList) ++ [[]]
  worded : ∀ line ∈ lines, line.content.toList.head? ≠ some ';' →
    ∃ instruction, line.instruction? = some instruction ∧
      line.content.toList.takeWhile (· ≠ ';') = instruction.text.toList

theorem worded_of_work {line : Line} (work : line.OfWork)
    (spoken : line.content.toList.head? ≠ some ';') :
    ∃ instruction, line.instruction? = some instruction ∧
      line.content.toList.takeWhile (· ≠ ';') = instruction.text.toList := by
  rw [takeWhile_content (.inr work)]
  cases line with
  | version number => cases work
  | comment text =>
      rw [toList_content] at spoken
      exact absurd rfl spoken
  | instruction content note => exact ⟨content, rfl, rfl⟩

end Line

/-- The knitout of a run has a text line for each line exactly when no comment breaks a line. -/
theorem Program.aligned_iff_of_run {program : Program} {machine final : Machine}
    {lines : List Line} (ran : program.run machine = .ok lines final) :
    Line.Aligned lines ↔ ∀ text, .comment text ∈ program.operations → Text.Unbroken text := by
  obtain ⟨known, told⟩ := lines_of_runAll ran
  constructor
  · intro aligned text spoken broken
    have member : (Line.comment text).content.toList ∈
        (Line.render lines).toList.splitOn '\n' := by
      rw [aligned.parts]
      exact List.mem_append_left _ (List.mem_map_of_mem (told text spoken))
    refine Text.not_mem_of_mem_splitOn member ?_
    rw [Line.toList_content]
    exact List.mem_cons_of_mem _ broken
  · intro unbroken
    refine ⟨Line.splitOn_render fun line member => ?_, fun line member instructs => ?_⟩
    · rcases known line member with work | ⟨text, spoken, rfl⟩
      · exact Line.Told.unbroken (.inr work)
      · exact Text.unbroken_append.mpr ⟨by decide, unbroken text spoken⟩
    · rcases known line member with work | ⟨text, spoken, rfl⟩
      · exact Line.worded_of_work work instructs
      · rw [Line.toList_content] at instructs
        exact absurd rfl instructs

theorem Program.aligned_iff_of_run_commented :
    let program : Program := ⟨none, [.comment "a; b", .bringIn ⟨1⟩, .peelSheets [0]]⟩
    ∃ lines final, program.run (.initial ⟨2, .zero, 1, 1⟩) = .ok lines final ∧ lines.length = 3 ∧
      Line.Aligned lines := by
  intro program
  have unbroken : ∀ text, .comment text ∈ program.operations → Text.Unbroken text := by
    intro text spoken
    simp only [program, List.mem_cons, Operation.comment.injEq, reduceCtorEq, List.not_mem_nil,
      or_false] at spoken
    subst spoken
    decide
  cases ran : program.run (.initial ⟨2, .zero, 1, 1⟩) with
  | ok lines final =>
      refine ⟨lines, final, rfl, ?_, (aligned_iff_of_run ran).mpr unbroken⟩
      cases ran
      rfl
  | error fault machine => cases ran

/-- A comment can make the text tell of an instruction that no machine has carried out. -/
theorem Program.comment_forges_instruction :
    ∃ (program : Program) (machine final : Machine) (lines : List Line),
      program.run machine = .ok lines final ∧ lines.filterMap Line.instruction? = [] ∧
        (Instruction.knit .leftToRight (.front 0) [⟨1⟩]).text.toList ∈
          (Line.render lines).toList.splitOn '\n' := by
  refine ⟨⟨none, [.comment "a\nknit + f0 1"]⟩, .initial .standard, _, _, rfl, rfl, ?_⟩
  decide +kernel

end VBed
