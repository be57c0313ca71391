import VBed.Proofs.Making

/-!
Adding loops to a needle of a bed, after whatever has been done to the bed and its graph before.
New loops are refused where one of the loops that they are pulled through lies beyond them, and by
then the needle is empty and the graph has grown. Such a loop is on the bed only when it was put
there before the graph had it.
-/

namespace VBed

namespace StitchGraph

theorem connect_unknown {graph : StitchGraph} {parent : LoopId} (child : LoopId) (pull : Pull)
    (unknown : ¬graph.contains parent) :
    graph.connect parent child pull = .error (.unknownLoop parent) := by
  simp only [connect, check, unknown]
  rfl

theorem loopCount_connected {graph next : StitchGraph} {parent child : LoopId} {pull : Pull}
    (connected : graph.connect parent child pull = .ok next) :
    next.loopCount = graph.loopCount := by
  simp only [connect, then_eq_ok, pure_eq_ok] at connected
  obtain ⟨_, _, rfl⟩ := connected
  exact loopCount_addStitch graph _

end StitchGraph

def LoopSource.given : LoopSource → List LoopId
  | .made _ => []
  | .moved loops => loops

namespace Bed

variable {bed : Bed} {graph : StitchGraph} {needle : Needle} {source : LoopSource}
  {dropPrior : Bool} {state next : Bed × StitchGraph}

def held (bed : Bed) (needle : Needle) : List LoopId :=
  (bed.at? needle).getD []

def Holds (bed : Bed) (loop : LoopId) : Prop :=
  ∃ needle, loop ∈ bed.held needle

theorem Holds.of_put {loops : List LoopId} {loop : LoopId}
    (holds : (bed.put needle loops).Holds loop) : bed.Holds loop ∨ loop ∈ loops := by
  obtain ⟨other, member⟩ := holds
  rw [held, at?_put] at member
  split at member
  · cases found : bed.at? other with
    | none => simp [found] at member
    | some _ => exact Or.inr (by simpa [found] using member)
  · exact Or.inl ⟨other, member⟩

theorem held_eq {prior : List LoopId} (found : bed.at? needle = some prior) :
    bed.held needle = prior := by
  rw [held, found, Option.getD_some]

theorem pullThrough_refused (bed : Bed) (graph : StitchGraph) (child : LoopId) (pull : Pull)
    (before : List LoopId) (stray : LoopId) (behind : List LoopId)
    (childKnown : graph.contains child) (known : ∀ parent ∈ before, graph.contains parent)
    (unknown : ¬graph.contains stray) :
    pullThrough child pull (before ++ stray :: behind) (bed, graph) =
      .error (.unknownLoop stray) (bed, graph.pulledThrough child pull before) := by
  induction before generalizing graph with
  | nil =>
      have refused := StitchGraph.connect_unknown child pull unknown
      rw [List.nil_append, pullThrough, run_get_bind]
      simp only [refused]
      rfl
  | cons parent rest ih =>
      have connected := StitchGraph.connect_known pull (known parent (by simp)) childKnown
      have tail := ih (graph.addStitch ⟨parent, child, pull⟩) (by simpa using childKnown)
        (fun other member => by simpa using known other (by simp [member])) (by simpa using unknown)
      rw [List.cons_append, pullThrough, run_get_bind]
      simp only [connected]
      exact tail

/-- What is left when new loops cannot be pulled through a loop that the needle held. -/
inductive Tears (bed : Bed) (graph : StitchGraph) (needle : Needle) :
    LoopSource → Bool → LoopId → Bed × StitchGraph → Prop
  | tear {yarn : Yarn} {rest : List Yarn} {before behind : List LoopId} {stray : LoopId}
      (held : bed.held needle = before ++ stray :: behind)
      (near : ∀ loop ∈ before, loop.index ≤ graph.loopCount)
      (far : graph.loopCount < stray.index) :
      Tears bed graph needle (.made (yarn :: rest)) true stray
        (bed.put needle [],
          (graph.newLoop yarn).2.pulledThrough (graph.newLoop yarn).1 bed.pull before)

theorem Tears.refused {stray : LoopId}
    (tears : Tears bed graph needle source dropPrior stray next) :
    addLoops needle source dropPrior (bed, graph) = .error (.unknownLoop stray) next := by
  obtain @⟨yarn, rest, before, behind, _, held, near, far⟩ := tears
  have found : bed.at? needle = some (before ++ stray :: behind) := by
    cases found : bed.at? needle with
    | none => simp [Bed.held, found] at held
    | some prior => rw [← held_eq found, held]
  have pulled := pullThrough_refused (bed.put needle []) (graph.newLoop yarn).2
    (graph.newLoop yarn).1 bed.pull before stray behind
    ((StitchGraph.contains_newLoop yarn).mpr (Nat.le_refl _))
    (fun loop member => (StitchGraph.contains_newLoop yarn).mpr (near loop member))
    (fun known => Nat.not_le_of_lt far ((StitchGraph.contains_newLoop yarn).mp known))
  have made : makeLoops (before ++ stray :: behind) bed.pull (yarn :: rest)
      (bed.put needle [], graph) = .error (.unknownLoop stray) (bed.put needle [],
        (graph.newLoop yarn).2.pulledThrough (graph.newLoop yarn).1 bed.pull before) := by
    rw [makeLoops_cons, run_bind_error pulled]
  rw [addLoops, run_get_bind]
  simp only [loopsAt_eq_ok.mpr found]
  change (makeLoops (before ++ stray :: behind) bed.pull _ >>= _) (bed.put needle [], graph) = _
  rw [run_bind_error made]

theorem Tears.stray {stray : LoopId} (tears : Tears bed graph needle source dropPrior stray next) :
    bed.Holds stray ∧ ¬graph.contains stray := by
  obtain ⟨held, _, far⟩ := tears
  refine ⟨⟨needle, by simp [held]⟩, ?_⟩
  rw [StitchGraph.contains_iff]
  exact Nat.not_lt_of_lt far

theorem Tears.changed {stray : LoopId}
    (tears : Tears bed graph needle source dropPrior stray next) :
    next ≠ (bed, graph) := by
  obtain ⟨_, _, _⟩ := tears
  intro same
  have counts := congrArg (StitchGraph.loopCount ∘ Prod.snd) same
  simp at counts

structure Grows (given : List LoopId) (state next : Bed × StitchGraph) : Prop where
  sizes : ∀ slider, (next.1.slots slider).size = (state.1.slots slider).size
  count : state.2.loopCount ≤ next.2.loopCount
  holds : ∀ loop, next.1.Holds loop →
    state.1.Holds loop ∨ loop ∈ given ∨ next.2.contains loop

theorem Grows.refl (given : List LoopId) (state : Bed × StitchGraph) : Grows given state state :=
  ⟨fun _ => rfl, Nat.le_refl _, fun _ holds => Or.inl holds⟩

theorem grows_put (needle : Needle) {given loops : List LoopId} {grown : StitchGraph}
    (count : graph.loopCount ≤ grown.loopCount)
    (origins : ∀ loop ∈ loops, bed.Holds loop ∨ loop ∈ given ∨ grown.contains loop) :
    Grows given (bed, graph) (bed.put needle loops, grown) := by
  refine ⟨size_slots_put bed needle loops, count, fun loop holds => ?_⟩
  rcases holds.of_put with before | member
  · exact Or.inl before
  · exact origins loop member

theorem grows_made (bed : Bed) (graph : StitchGraph) (needle : Needle)
    (parents kept : List LoopId) (yarns : List Yarn) (stays : ∀ loop ∈ kept, bed.Holds loop) :
    Grows [] (bed, graph) (bed.put needle (kept ++ graph.nextLoops yarns.length),
      graph.grown parents bed.pull yarns) := by
  refine grows_put needle ?_ fun loop member => ?_
  · rw [StitchGraph.loopCount_grown]
    exact Nat.le_add_right _ _
  · rcases List.mem_append.mp member with old | new
    · exact Or.inl (stays loop old)
    · refine Or.inr (Or.inr ?_)
      rw [StitchGraph.contains_iff, StitchGraph.loopCount_grown]
      exact (StitchGraph.mem_nextLoops.mp new).2

theorem exists_first_stray {graph : StitchGraph} {loops : List LoopId}
    (far : ¬∀ loop ∈ loops, loop.index ≤ graph.loopCount) :
    ∃ before stray behind, loops = before ++ stray :: behind ∧
      (∀ loop ∈ before, loop.index ≤ graph.loopCount) ∧ graph.loopCount < stray.index := by
  induction loops with
  | nil => simp at far
  | cons loop rest ih =>
      by_cases near : loop.index ≤ graph.loopCount
      · obtain ⟨before, stray, behind, rfl, nearBefore, farStray⟩ :=
          ih fun all => far (by simpa [near] using all)
        exact ⟨loop :: before, stray, behind, rfl, by simpa [near] using nearBefore, farStray⟩
      · exact ⟨[], loop, rest, rfl, by simp, Nat.lt_of_not_le near⟩

/-- Adding loops succeeds, or is refused because of the needle, or tears. -/
theorem addLoops_cases (bed : Bed) (graph : StitchGraph) (needle : Needle) (source : LoopSource)
    (dropPrior : Bool) :
    (∃ added next, addLoops needle source dropPrior (bed, graph) = .ok added next ∧
      Grows source.given (bed, graph) next) ∨
    (bed.at? needle = none ∧ addLoops needle source dropPrior (bed, graph) =
      .error (.needleOutOfRange (Text.signedWord needle.position) bed.needleCount) (bed, graph)) ∨
    ∃ stray next, Tears bed graph needle source dropPrior stray next := by
  cases found : bed.at? needle with
  | none =>
      refine Or.inr (Or.inl ⟨rfl, ?_⟩)
      rw [addLoops, run_get_bind]
      simp only [loopsAt, found]
      rfl
  | some prior =>
      have stays : ∀ loop ∈ prior, bed.Holds loop :=
        fun loop member => ⟨needle, by rwa [held_eq found]⟩
      cases source with
      | moved loops =>
          refine Or.inl ?_
          cases dropPrior with
          | false =>
              refine ⟨_, _, addLoops_moved graph loops found, grows_put needle (Nat.le_refl _) ?_⟩
              intro loop member
              rcases List.mem_append.mp member with old | new
              · exact Or.inl (stays loop old)
              · exact Or.inr (Or.inl new)
          | true =>
              exact ⟨_, _, addLoops_replacing graph loops found,
                grows_put needle (Nat.le_refl _) fun loop member => Or.inr (Or.inl member)⟩
      | made yarns =>
          cases dropPrior with
          | false =>
              exact Or.inl ⟨_, _, addLoops_keeping yarns found,
                grows_made bed graph needle [] prior yarns stays⟩
          | true =>
              by_cases near : ∀ loop ∈ prior, loop.index ≤ graph.loopCount
              · exact Or.inl ⟨_, _, addLoops_dropping yarns found near,
                  grows_made bed graph needle prior [] yarns (by simp)⟩
              · obtain ⟨before, stray, behind, rfl, nearBefore, far⟩ := exists_first_stray near
                cases yarns with
                | nil =>
                    exact Or.inl ⟨_, _, addLoops_replacing graph [] found,
                      grows_put needle (Nat.le_refl _) (by simp)⟩
                | cons yarn rest =>
                    exact Or.inr (Or.inr ⟨stray, _, .tear (held_eq found) nearBefore far⟩)

inductive Change where
  | add (needle : Needle) (source : LoopSource) (dropPrior : Bool)
  | drop (needle : Needle)
  | newLoop (yarn : Yarn)
  | connect (parent child : LoopId) (pull : Pull)

namespace Change

def given : Change → List LoopId
  | add _ source _ => source.given
  | _ => []

def after (state : Bed × StitchGraph) : Change → Bed × StitchGraph
  | add needle source dropPrior => finalState (addLoops needle source dropPrior state)
  | drop needle =>
      match state.1.drop needle with
      | .ok (_, bed) => (bed, state.2)
      | .error _ => state
  | newLoop yarn => (state.1, (state.2.newLoop yarn).2)
  | connect parent child pull =>
      match state.2.connect parent child pull with
      | .ok graph => (state.1, graph)
      | .error _ => state

theorem grows (state : Bed × StitchGraph) (change : Change) :
    Grows change.given state (change.after state) := by
  obtain ⟨bed, graph⟩ := state
  cases change with
  | add needle source dropPrior =>
      rw [after, given]
      rcases addLoops_cases bed graph needle source dropPrior with
        ⟨added, next, ran, grows⟩ | ⟨_, failed⟩ | ⟨stray, next, tears⟩
      · rw [ran]
        exact grows
      · rw [failed]
        exact Grows.refl _ _
      · rw [tears.refused]
        obtain ⟨_, _, _⟩ := tears
        exact grows_put needle (by simp) (by simp)
  | drop needle =>
      simp only [after, Bed.drop]
      cases bed.loopsAt needle with
      | error _ => exact Grows.refl _ _
      | ok loops => exact grows_put needle (Nat.le_refl _) (by simp)
  | newLoop yarn =>
      refine ⟨fun _ => rfl, ?_, fun loop holds => Or.inl holds⟩
      simp only [after, StitchGraph.loopCount_newLoop]
      exact Nat.le_succ _
  | connect parent child pull =>
      simp only [after]
      cases connected : graph.connect parent child pull with
      | error _ => exact Grows.refl _ _
      | ok next =>
          exact ⟨fun _ => rfl, Nat.le_of_eq (StitchGraph.loopCount_connected connected).symm,
            fun loop holds => Or.inl holds⟩

end Change

def afterAll (state : Bed × StitchGraph) (changes : List Change) : Bed × StitchGraph :=
  changes.foldl Change.after state

/-- The loops that changes hand to a bed before the graph has them. -/
def strays (state : Bed × StitchGraph) : List Change → List LoopId
  | [] => []
  | change :: rest =>
      change.given.filter (!state.2.contains ·) ++ strays (change.after state) rest

theorem loopCount_afterAll (changes : List Change) (state : Bed × StitchGraph) :
    state.2.loopCount ≤ (afterAll state changes).2.loopCount := by
  induction changes generalizing state with
  | nil => exact Nat.le_refl _
  | cons change rest ih => exact Nat.le_trans (change.grows state).count (ih (change.after state))

theorem size_afterAll (changes : List Change) (state : Bed × StitchGraph) (slider : Bool) :
    ((afterAll state changes).1.slots slider).size = (state.1.slots slider).size := by
  induction changes generalizing state with
  | nil => rfl
  | cons change rest ih => exact (ih (change.after state)).trans ((change.grows state).sizes slider)

theorem holds_afterAll (changes : List Change) (state : Bed × StitchGraph) {loop : LoopId}
    (holds : (afterAll state changes).1.Holds loop) :
    state.1.Holds loop ∨ loop ∈ strays state changes ∨
      (afterAll state changes).2.contains loop := by
  induction changes generalizing state with
  | nil => exact Or.inl holds
  | cons change rest ih =>
      let next := change.after state
      have later : ∀ {graph : StitchGraph}, graph.loopCount ≤ next.2.loopCount →
          graph.contains loop → (afterAll next rest).2.contains loop := by
        intro graph grows known
        rw [StitchGraph.contains_iff] at known ⊢
        exact Nat.lt_of_lt_of_le known (Nat.le_trans grows (loopCount_afterAll rest next))
      rcases ih next holds with held | stray | known
      · rcases (change.grows state).holds loop held with before | given | known
        · exact Or.inl before
        · by_cases known : state.2.contains loop
          · exact Or.inr (Or.inr (later (change.grows state).count known))
          · have handed : loop ∈ change.given.filter (!state.2.contains ·) := by simp [given, known]
            exact Or.inr (Or.inl (List.mem_append_left _ handed))
        · exact Or.inr (Or.inr (later (Nat.le_refl _) known))
      · exact Or.inr (Or.inl (List.mem_append_right _ stray))
      · exact Or.inr (Or.inr known)

theorem not_holds_empty (side : Side) (needleCount : Nat) (loop : LoopId) :
    ¬(Bed.empty side needleCount).Holds loop := by
  rintro ⟨⟨_, position, slider⟩, member⟩
  cases slider <;> simp [held, at?, slots, Bed.empty, Array.getElem?_replicate] at member <;>
    split at member <;> simp at member

/-- Adding loops is refused beyond the bed, which changes nothing, and where it tears, which needs a
loop that was handed to the bed too early. -/
structure Adding (needleCount : Nat) (state : Bed × StitchGraph) (early : List LoopId) : Prop where
  refused : ∀ needle source dropPrior fault next,
    addLoops needle source dropPrior state = .error fault next →
      needleCount ≤ needle.position ∧ next = state ∧
          fault = .needleOutOfRange (Text.signedWord needle.position) needleCount ∨
        ∃ stray ∈ early, fault = .unknownLoop stray ∧
          Tears state.1 state.2 needle source dropPrior stray next
  torn : ∀ needle source dropPrior stray next,
    Tears state.1 state.2 needle source dropPrior stray next →
      addLoops needle source dropPrior state = .error (.unknownLoop stray) next ∧ next ≠ state
  whole : early = [] → ∀ needle source dropPrior fault next,
    addLoops needle source dropPrior state = .error fault next → next = state

theorem refused_of_error {needleCount : Nat} {early : List LoopId}
    (width : ∀ slider, (bed.slots slider).size = needleCount)
    (origins : ∀ loop, bed.Holds loop → loop ∈ early ∨ graph.contains loop) {fault : Fault}
    (failed : addLoops needle source dropPrior (bed, graph) = .error fault next) :
    needleCount ≤ needle.position ∧ next = (bed, graph) ∧
        fault = .needleOutOfRange (Text.signedWord needle.position) needleCount ∨
      ∃ stray ∈ early, fault = .unknownLoop stray ∧
        Tears bed graph needle source dropPrior stray next := by
  rcases addLoops_cases bed graph needle source dropPrior with
    ⟨added, last, ran, _⟩ | ⟨outside, ran⟩ | ⟨stray, last, tears⟩
  · rw [ran] at failed
    cases failed
  · rw [ran] at failed
    cases failed
    have notInRange : ¬needle.position < (bed.slots needle.slider).size := by
      rw [← at?_isSome_iff, outside]
      exact Bool.false_ne_true
    rw [width] at notInRange
    exact Or.inl ⟨Nat.le_of_not_lt notInRange, rfl, congrArg _ (width false)⟩
  · rw [tears.refused] at failed
    cases failed
    have ⟨holds, unknown⟩ := tears.stray
    exact Or.inr ⟨stray, (origins stray holds).resolve_right unknown, rfl, tears⟩

theorem adding_afterAll (side : Side) (needleCount : Nat) (changes : List Change) :
    Adding needleCount (afterAll (.empty side needleCount, .empty) changes)
      (strays (.empty side needleCount, .empty) changes) := by
  let start : Bed × StitchGraph := (.empty side needleCount, .empty)
  have width : ∀ slider, ((afterAll start changes).1.slots slider).size = needleCount := by
    intro slider
    rw [size_afterAll]
    cases slider <;> exact Array.size_replicate
  have origins : ∀ loop, (afterAll start changes).1.Holds loop →
      loop ∈ strays start changes ∨ (afterAll start changes).2.contains loop :=
    fun loop holds =>
      (holds_afterAll changes start holds).resolve_left (not_holds_empty side needleCount loop)
  refine ⟨fun _ _ _ _ _ failed => refused_of_error width origins failed,
    fun _ _ _ _ _ tears => ⟨tears.refused, tears.changed⟩, ?_⟩
  intro none needle source dropPrior fault next failed
  rcases refused_of_error width origins failed with ⟨_, same, _⟩ | ⟨_, member, _⟩
  · exact same
  · rw [none] at member
    cases member

theorem addLoops_whole_handed :
    let changes := [.newLoop ⟨⟨1⟩, 0⟩, .add (.front 0) (.moved [⟨0⟩]) false]
    let state := afterAll (.empty .front 1, .empty) changes
    strays (.empty .front 1, .empty) changes = [] ∧ state.1.held (.front 0) = [⟨0⟩] ∧
      (∃ fault, addLoops (.front 1) (.made [⟨⟨1⟩, 0⟩]) true state = .error fault state) ∧
      ∀ needle source dropPrior fault next,
        addLoops needle source dropPrior state = .error fault next → next = state :=
  ⟨by decide, by decide, ⟨_, rfl⟩, (adding_afterAll .front 1 _).whole (by decide)⟩

/-- A loop that the graph never had is on a needle. New loops that drop it are refused, with the
needle emptied and one of them made. -/
theorem addLoops_tears_handed :
    let state := afterAll (.empty .front 1, .empty) [.add (.front 0) (.moved [⟨6⟩]) false]
    let yarn : Yarn := ⟨⟨1⟩, 0⟩
    addLoops (.front 0) (.made [yarn]) true state =
        .error (.unknownLoop ⟨6⟩) (state.1.put (.front 0) [], (state.2.newLoop yarn).2) ∧
      state.1.held (.front 0) = [⟨6⟩] ∧ (state.1.put (.front 0) []).held (.front 0) = [] ∧
      state.2.loopCount = 0 ∧ (state.2.newLoop yarn).2.loopCount = 1 :=
  ⟨rfl, by decide, by decide, by decide, by decide⟩

end Bed

end VBed
