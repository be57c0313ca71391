import VBed.Machine.Basic

/-!
How checks and operations run. A sequence of checks succeeds when each of them does, and an
operation that follows another starts from the state that the first one leaves.
-/

namespace VBed

section Checks

variable {α β : Type}

@[simp] theorem pure_eq_ok {value result : α} :
    (pure value : Except Fault α) = .ok result ↔ value = result :=
  ⟨Except.ok.inj, congrArg Except.ok⟩

@[simp] theorem pure_ne_error {value : α} {fault : Fault} :
    (pure value : Except Fault α) ≠ .error fault := by
  intro same
  cases same

@[simp] theorem throw_bind {fault : Fault} {next : α → Except Fault β} :
    ((throw fault : Except Fault α) >>= next) = throw fault := rfl

@[simp] theorem bind_eq_ok {first : Except Fault α} {next : α → Except Fault β} {result : β} :
    first >>= next = .ok result ↔ ∃ value, first = .ok value ∧ next value = .ok result := by
  cases first <;> simp [bind, Except.bind]

@[simp] theorem bind_eq_error {first : Except Fault α} {next : α → Except Fault β}
    {fault : Fault} :
    first >>= next = .error fault ↔
      first = .error fault ∨ ∃ value, first = .ok value ∧ next value = .error fault := by
  cases first <;> simp [bind, Except.bind]

@[simp] theorem then_eq_ok {check : Except Fault Unit} {rest : Unit → Except Fault β}
    {result : β} : check >>= rest = .ok result ↔ check = .ok () ∧ rest () = .ok result := by
  rw [bind_eq_ok]
  exact ⟨fun ⟨(), passed, ran⟩ => ⟨passed, ran⟩, fun ⟨passed, ran⟩ => ⟨(), passed, ran⟩⟩

@[simp] theorem map_eq_ok {check : Except Fault α} {convert : α → β} {result : β} :
    convert <$> check = .ok result ↔ ∃ value, check = .ok value ∧ convert value = result := by
  cases check <;> simp [Functor.map, Except.map]

@[simp] theorem refusal_eq_ok {condition : Prop} [Decidable condition] {fault : Fault}
    {rest : Except Fault α} {result : α} :
    (if condition then throw fault else rest) = .ok result ↔
      ¬condition ∧ rest = .ok result := by
  by_cases holds : condition <;> simp [holds]

theorem forM_eq_ok {check : α → Except Fault Unit} (elements : List α) :
    elements.forM check = .ok () ↔ ∀ element ∈ elements, check element = .ok () := by
  induction elements with
  | nil => simp [List.forM]
  | cons element rest ih =>
      change (check element >>= fun _ => rest.forM check) = .ok () ↔ _
      rw [then_eq_ok, List.forall_mem_cons, ih]

theorem forM_eq_error {check : α → Except Fault Unit} {fault : Fault} {elements : List α}
    (failed : elements.forM check = .error fault) :
    ∃ element ∈ elements, check element = .error fault := by
  induction elements with
  | nil => simp [List.forM] at failed
  | cons element rest ih =>
      change (check element >>= fun _ => rest.forM check) = .error fault at failed
      rcases bind_eq_error.mp failed with here | ⟨_, _, later⟩
      · exact ⟨element, by simp, here⟩
      · obtain ⟨other, member, refused⟩ := ih later
        exact ⟨other, by simp [member], refused⟩

theorem mapM_cons_eq_ok {check : α → Except Fault β} {element : α} {rest : List α}
    {results : List β} :
    (element :: rest).mapM check = .ok results ↔ ∃ first others,
      check element = .ok first ∧ rest.mapM check = .ok others ∧ first :: others = results := by
  simp only [List.mapM_cons, bind_eq_ok, pure_eq_ok]
  constructor
  · rintro ⟨first, here, others, there, same⟩
    exact ⟨first, others, here, there, same⟩
  · rintro ⟨first, others, here, there, same⟩
    exact ⟨first, here, others, there, same⟩

/-- The results of checks that all pass are the answers to the single elements. -/
theorem mem_of_mapM_ok {check : α → Except Fault β} {elements : List α} {results : List β}
    (passed : elements.mapM check = .ok results) :
    (∀ element ∈ elements, ∃ result ∈ results, check element = .ok result) ∧
      ∀ result ∈ results, ∃ element ∈ elements, check element = .ok result := by
  induction elements generalizing results with
  | nil =>
      rw [List.mapM_nil, pure_eq_ok] at passed
      subst results
      simp
  | cons element rest ih =>
      obtain ⟨first, others, here, there, rfl⟩ := mapM_cons_eq_ok.mp passed
      obtain ⟨forward, backward⟩ := ih there
      constructor
      · intro other member
        rcases List.mem_cons.mp member with same | tail
        · exact ⟨first, by simp, by rw [same, here]⟩
        · obtain ⟨result, found, answers⟩ := forward other tail
          exact ⟨result, by simp [found], answers⟩
      · intro result member
        rcases List.mem_cons.mp member with same | tail
        · exact ⟨element, by simp, by rw [same, here]⟩
        · obtain ⟨other, found, answers⟩ := backward result tail
          exact ⟨other, by simp [found], answers⟩

/-- Results stand in the order of what was checked. -/
theorem pairwise_of_mapM_ok {check : α → Except Fault β} {order : α → α → Prop}
    {resultOrder : β → β → Prop}
    (ordered : ∀ first second, order first second → ∀ result other, check first = .ok result →
      check second = .ok other → resultOrder result other)
    {elements : List α} {results : List β} (passed : elements.mapM check = .ok results)
    (sorted : elements.Pairwise order) : results.Pairwise resultOrder := by
  induction elements generalizing results with
  | nil =>
      rw [List.mapM_nil, pure_eq_ok] at passed
      subst results
      exact .nil
  | cons element rest ih =>
      obtain ⟨first, others, here, there, rfl⟩ := mapM_cons_eq_ok.mp passed
      obtain ⟨before, sortedRest⟩ := List.pairwise_cons.mp sorted
      refine List.pairwise_cons.mpr ⟨fun other member => ?_, ih there sortedRest⟩
      obtain ⟨later, inRest, answers⟩ := (mem_of_mapM_ok there).2 other member
      exact ordered element later (before later inRest) first other here answers

theorem mapM_eq_error {check : α → Except Fault β} {elements : List α} {fault : Fault}
    (failed : elements.mapM check = .error fault) :
    ∃ element ∈ elements, check element = .error fault := by
  induction elements with
  | nil => simp at failed
  | cons element rest ih =>
      rw [List.mapM_cons, bind_eq_error] at failed
      rcases failed with here | ⟨first, _, later⟩
      · exact ⟨element, by simp, here⟩
      · rcases bind_eq_error.mp later with there | ⟨_, _, impossible⟩
        · obtain ⟨other, member, refused⟩ := ih there
          exact ⟨other, by simp [member], refused⟩
        · simp at impossible

end Checks

section Operations

variable {σ α β : Type} {state next last : σ}

theorem run_bind_ok {first : EStateM Fault σ α} {second : α → EStateM Fault σ β} {value : α}
    (ran : first state = .ok value next) : (first >>= second) state = second value next := by
  simp only [bind, EStateM.bind, ran]

theorem run_bind_error {first : EStateM Fault σ α} {second : α → EStateM Fault σ β}
    {fault : Fault} (failed : first state = .error fault next) :
    (first >>= second) state = .error fault next := by
  simp only [bind, EStateM.bind, failed]

theorem run_bind_eq_ok {first : EStateM Fault σ α} {second : α → EStateM Fault σ β} {result : β} :
    (first >>= second) state = .ok result last ↔
      ∃ value next, first state = .ok value next ∧ second value next = .ok result last := by
  simp only [bind, EStateM.bind]
  cases first state with
  | ok value middle =>
      constructor
      · intro ran
        exact ⟨value, middle, rfl, ran⟩
      · rintro ⟨_, _, same, ran⟩
        cases same
        exact ran
  | error fault middle => simp

/-- Actions whose outcome is known make up a run whose outcome is known, step after step. -/
theorem mapM_run_eq_foldl {act : α → EStateM Fault σ β} {step : σ → α → σ} (invariant : σ → Prop)
    (determined : ∀ state element value next, invariant state →
      act element state = .ok value next → next = step state element ∧ invariant next)
    {elements : List α} {values : List β} (holds : invariant state)
    (ran : elements.mapM act state = .ok values last) : last = elements.foldl step state := by
  induction elements generalizing state values with
  | nil =>
      cases ran
      rfl
  | cons element rest ih =>
      rw [List.mapM_cons] at ran
      obtain ⟨value, middle, first, others⟩ := run_bind_eq_ok.mp ran
      obtain ⟨later, final, goesOn, same⟩ := run_bind_eq_ok.mp others
      cases same
      obtain ⟨rfl, kept⟩ := determined state element value middle holds first
      exact ih kept goesOn

theorem run_get_bind {second : σ → EStateM Fault σ β} :
    (get >>= second) state = second state state := rfl

def finalState : EStateM.Result Fault σ α → σ
  | .ok _ state => state
  | .error _ state => state

end Operations

namespace Machine

variable {α : Type} {query : Machine → Except Fault α} {machine : Machine}

theorem ask_ok {answer : α} (found : query machine = .ok answer) :
    ask query machine = .ok answer machine := by
  simp only [ask, found]

theorem ask_error {fault : Fault} (failed : query machine = .error fault) :
    ask query machine = .error fault machine := by
  simp only [ask, failed]

/-- What uses the answer to a question starts from the same machine. -/
theorem ask_bind_eq_ok {β : Type} {rest : α → Action β} {next : Machine} {result : β} :
    (ask query >>= rest) machine = .ok result next ↔
      ∃ answer, query machine = .ok answer ∧ rest answer machine = .ok result next := by
  cases asked : query machine with
  | error fault =>
      rw [run_bind_error (ask_error asked)]
      simp
  | ok answer =>
      rw [run_bind_ok (ask_ok asked)]
      simp

end Machine

end VBed
