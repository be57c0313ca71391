import VBed.Proofs.Runs

/-!
Operations that have no result at all once a step has none: an index beyond an array, a division
by zero, a sum, product or difference that is no machine word. Such a strict operation agrees with
an operation of the machine when all its steps have results and it runs like the other.
-/

namespace VBed

/-- An operation that has no result once one of its steps has none. -/
def Strict (σ α : Type) : Type :=
  σ → Option (EStateM.Result Fault σ α)

namespace Strict

section Sites

variable {α : Type}

def sum (first second : Nat) : Option Nat :=
  if first + second < Text.wordCount then some (first + second) else none

def product (first second : Nat) : Option Nat :=
  if first * second < Text.wordCount then some (first * second) else none

def difference (first second : Nat) : Option Nat :=
  if second ≤ first then some (first - second) else none

def quotient (dividend divisor : Nat) : Option Nat :=
  if divisor = 0 then none else some (dividend / divisor)

def remainder (dividend divisor : Nat) : Option Nat :=
  if divisor = 0 then none else some (dividend % divisor)

/-- The remainder of two signed words that is not negative. The least word has no quotient by minus
one, and then no remainder either. -/
def euclidean (dividend divisor : Int) : Option Nat :=
  if divisor = 0 ∨ dividend = -Nat.pow 2 63 ∧ divisor = -1 then none
  else some (dividend % divisor).toNat

def write (array : Array α) (index : Nat) (value : α) : Option (Array α) :=
  if index < array.size then some (array.setIfInBounds index value) else none

def change (array : Array α) (index : Nat) (update : α → α) : Option (Array α) :=
  if index < array.size then some (array.modify index update) else none

theorem sum_of_lt {first second : Nat} (word : first + second < Text.wordCount) :
    sum first second = some (first + second) :=
  if_pos word

theorem product_of_lt {first second : Nat} (word : first * second < Text.wordCount) :
    product first second = some (first * second) :=
  if_pos word

theorem difference_of_le {first second : Nat} (ordered : second ≤ first) :
    difference first second = some (first - second) :=
  if_pos ordered

theorem quotient_of_pos {divisor : Nat} (positive : 0 < divisor) (dividend : Nat) :
    quotient dividend divisor = some (dividend / divisor) :=
  if_neg (Nat.ne_of_gt positive)

theorem remainder_of_pos {divisor : Nat} (positive : 0 < divisor) (dividend : Nat) :
    remainder dividend divisor = some (dividend % divisor) :=
  if_neg (Nat.ne_of_gt positive)

theorem euclidean_of_pos {divisor : Int} (positive : 0 < divisor) (dividend : Int) :
    euclidean dividend divisor = some (dividend % divisor).toNat := by
  rw [euclidean, if_neg]
  omega

theorem write_of_lt {array : Array α} {index : Nat} (inRange : index < array.size) (value : α) :
    write array index value = some (array.setIfInBounds index value) :=
  if_pos inRange

theorem change_of_lt {array : Array α} {index : Nat} (inRange : index < array.size)
    (update : α → α) : change array index update = some (array.modify index update) :=
  if_pos inRange

/-- Steps that all have results have the list of them. -/
theorem mapM_of_pure {monad : Type → Type} [Monad monad] [LawfulMonad monad] {β : Type}
    {step : α → monad β} {result : α → β} {elements : List α}
    (found : ∀ element ∈ elements, step element = pure (result element)) :
    elements.mapM step = pure (elements.map result) := by
  induction elements with
  | nil => rfl
  | cons element rest ih =>
      rw [List.mapM_cons, found element (by simp),
        ih fun other member => found other (by simp [member]), pure_bind, pure_bind, List.map_cons]

end Sites

section Operations

variable {σ α β : Type}

instance : Monad (Strict σ) where
  pure value := fun state => some (.ok value state)
  bind first second := fun state =>
    match first state with
    | none => none
    | some (.ok value next) => second value next
    | some (.error fault next) => some (.error fault next)

instance : LawfulMonad (Strict σ) := by
  refine LawfulMonad.mk' _ ?_ (fun _ _ => rfl) ?_
  · intro _ operation
    funext state
    simp only [Functor.map, Function.comp, id]
    rcases operation state with _ | (_ | _) <;> rfl
  · intro _ _ _ operation second third
    funext state
    simp only [Bind.bind]
    rcases operation state with _ | (_ | _) <;> rfl

def lift (action : EStateM Fault σ α) : Strict σ α :=
  fun state => some (action state)

def site (result : Option α) : Strict σ α :=
  fun state => result.map (.ok · state)

/-- From a state that satisfies the invariant, the strict operation has results at all steps and
runs like the other operation, which keeps the invariant. -/
structure Agrees (invariant : σ → Prop) (strict : Strict σ α) (action : EStateM Fault σ α)
    (state : σ) : Prop where
  runs : strict state = some (action state)
  keeps : invariant (finalState (action state))

variable {invariant : σ → Prop} {state : σ}

theorem agrees_pure (holds : invariant state) (value : α) :
    Agrees invariant (pure value : Strict σ α) (pure value) state :=
  ⟨rfl, holds⟩

theorem agrees_lift {action : EStateM Fault σ α} (keeps : invariant (finalState (action state))) :
    Agrees invariant (lift action) action state :=
  ⟨rfl, keeps⟩

theorem Agrees.weaken {other : σ → Prop} {strict : Strict σ α} {action : EStateM Fault σ α}
    (agrees : Agrees invariant strict action state)
    (weaker : ∀ next, invariant next → other next) : Agrees other strict action state :=
  ⟨agrees.runs, weaker _ agrees.keeps⟩

theorem Agrees.bind {strict : Strict σ α} {action : EStateM Fault σ α} {rest : α → Strict σ β}
    {follow : α → EStateM Fault σ β} (first : Agrees invariant strict action state)
    (second : ∀ value next, action state = .ok value next → invariant next →
      Agrees invariant (rest value) (follow value) next) :
    Agrees invariant (strict >>= rest) (action >>= follow) state := by
  obtain ⟨runs, keeps⟩ := first
  cases ran : action state with
  | ok value next =>
      rw [ran] at runs keeps
      obtain ⟨later, kept⟩ := second value next ran keeps
      refine ⟨?_, ?_⟩
      · rw [run_bind_ok ran, ← later]
        simp only [Bind.bind, runs]
      · rwa [run_bind_ok ran]
  | error fault next =>
      rw [ran] at runs keeps
      refine ⟨?_, ?_⟩
      · rw [run_bind_error ran]
        simp only [Bind.bind, runs]
      · rwa [run_bind_error ran]

theorem agrees_get_bind {rest : σ → Strict σ α} {action : EStateM Fault σ α}
    (second : Agrees invariant (rest state) action state) :
    Agrees invariant (lift get >>= rest) action state :=
  ⟨second.runs, second.keeps⟩

theorem agrees_get {strict : Strict σ α} {follow : σ → EStateM Fault σ α}
    (second : Agrees invariant strict (follow state) state) :
    Agrees invariant strict (get >>= follow) state :=
  ⟨second.runs, second.keeps⟩

theorem agrees_set_bind {next : σ} {strict : Strict σ α} {follow : EStateM Fault σ α}
    (second : Agrees invariant strict follow next) :
    Agrees invariant (lift (set next) >>= fun _ => strict) (set next >>= fun _ => follow) state :=
  ⟨second.runs, second.keeps⟩

theorem agrees_site_bind {result : Option α} {value : α} {rest : α → Strict σ β}
    {action : EStateM Fault σ β} (found : result = some value)
    (second : Agrees invariant (rest value) action state) :
    Agrees invariant (site result >>= rest) action state := by
  subst found
  exact ⟨second.runs, second.keeps⟩

/-- A strict operation with a known result, which leaves the state. -/
theorem agrees_runs_bind {strict : Strict σ α} {value : α} {rest : α → Strict σ β}
    {action : EStateM Fault σ β} (runs : strict state = some (.ok value state))
    (second : Agrees invariant (rest value) action state) :
    Agrees invariant (strict >>= rest) action state := by
  refine ⟨?_, second.keeps⟩
  rw [← second.runs]
  simp only [Bind.bind, runs]

theorem agrees_mapM {strict : α → Strict σ β} {action : α → EStateM Fault σ β} {elements : List α}
    (each : ∀ element ∈ elements, ∀ state, invariant state →
      Agrees invariant (strict element) (action element) state)
    (holds : invariant state) :
    Agrees invariant (elements.mapM strict) (elements.mapM action) state := by
  induction elements generalizing state with
  | nil => exact agrees_pure holds []
  | cons element rest ih =>
      rw [List.mapM_cons, List.mapM_cons]
      refine (each element (by simp) state holds).bind fun result next _ kept => ?_
      exact (ih (fun other member => each other (by simp [member])) kept).bind fun _ _ _ last =>
        agrees_pure last _

end Operations

section Questions

open Machine (ask)

variable {invariant : Machine → Prop} {machine : Machine} {α β : Type}

theorem agrees_ask (query : Machine → Except Fault α) (holds : invariant machine) :
    Agrees invariant (lift (ask query)) (ask query) machine := by
  refine agrees_lift ?_
  cases asked : query machine with
  | error fault => rwa [Machine.ask_error asked]
  | ok answer => rwa [Machine.ask_ok asked]

/-- What uses the answer to a question starts from the same machine. -/
theorem Agrees.ask_bind {strict : Strict Machine α} {query : Machine → Except Fault α}
    {rest : α → Strict Machine β} {follow : α → Machine.Action β}
    (first : Agrees invariant strict (ask query) machine)
    (second : ∀ answer, query machine = .ok answer →
      Agrees invariant (rest answer) (follow answer) machine) :
    Agrees invariant (strict >>= rest) (ask query >>= follow) machine := by
  refine first.bind fun answer next ran _ => ?_
  cases asked : query machine with
  | error fault =>
      rw [Machine.ask_error asked] at ran
      cases ran
  | ok found =>
      rw [Machine.ask_ok asked] at ran
      cases ran
      exact second answer asked

/-- A question that asks another one first. -/
theorem Agrees.ask_then {strict : Strict Machine α} {first : Machine → Except Fault α}
    {rest : α → Strict Machine β} {query : Machine → Except Fault β} {second : α → Except Fault β}
    (early : Agrees invariant strict (ask first) machine)
    (splits : query machine = first machine >>= second)
    (late : ∀ answer, first machine = .ok answer →
      Agrees invariant (rest answer) (ask fun _ => second answer) machine) :
    Agrees invariant (strict >>= rest) (ask query) machine := by
  have same : ask query machine =
      (ask first >>= fun answer => ask fun _ => second answer) machine := by
    cases asked : first machine with
    | error fault =>
        rw [run_bind_error (Machine.ask_error asked)]
        refine Machine.ask_error ?_
        rw [splits, asked]
        rfl
    | ok answer =>
        rw [run_bind_ok (Machine.ask_ok asked)]
        simp only [ask, splits, asked]
        rfl
  obtain ⟨runs, keeps⟩ := early.ask_bind late
  rw [← same] at runs keeps
  exact ⟨runs, keeps⟩

/-- A question with a known answer. -/
theorem agrees_known_bind {query : Machine → Except Fault α} {answer : α}
    {rest : α → Strict Machine β} {action : Machine.Action β} (known : query machine = .ok answer)
    (second : Agrees invariant (rest answer) action machine) :
    Agrees invariant (lift (ask query) >>= rest) action machine :=
  agrees_runs_bind (congrArg some (Machine.ask_ok known)) second

/-- Both questions are answered, each in its own form. -/
theorem Agrees.ask_convert {γ : Type} {strict : Strict Machine γ}
    {query : Machine → Except Fault α} {convert : α → γ} {rest : γ → Strict Machine β}
    {follow : α → Machine.Action β}
    (first : Agrees invariant strict (ask fun current => convert <$> query current) machine)
    (second : ∀ answer, query machine = .ok answer →
      Agrees invariant (rest (convert answer)) (follow answer) machine) :
    Agrees invariant (strict >>= rest) (ask query >>= follow) machine := by
  obtain ⟨runs, keeps⟩ := first
  cases asked : query machine with
  | error fault =>
      refine ⟨?_, ?_⟩
      · rw [run_bind_error (Machine.ask_error asked)]
        simp only [Bind.bind, runs, ask, asked]
        rfl
      · rw [run_bind_error (Machine.ask_error asked)]
        simp only [ask, asked] at keeps
        exact keeps
  | ok answer =>
      obtain ⟨later, kept⟩ := second answer asked
      refine ⟨?_, ?_⟩
      · rw [run_bind_ok (Machine.ask_ok asked), ← later]
        simp only [Bind.bind, runs, ask, asked]
        rfl
      · rwa [run_bind_ok (Machine.ask_ok asked)]

theorem agrees_mapM_ask {strict : α → Strict Machine β} {query : α → Except Fault β}
    {elements : List α} (each : ∀ element ∈ elements,
      Agrees invariant (strict element) (ask fun _ => query element) machine)
    (holds : invariant machine) :
    Agrees invariant (elements.mapM strict) (ask fun _ => elements.mapM query) machine := by
  induction elements with
  | nil => exact ⟨rfl, holds⟩
  | cons element rest ih =>
      rw [List.mapM_cons]
      refine (each element (by simp)).ask_then List.mapM_cons fun result _ => ?_
      exact (ih fun other member => each other (by simp [member])).ask_then rfl fun _ _ =>
        ⟨rfl, holds⟩

theorem Agrees.ask_congr {strict : Strict Machine α} {first second : Machine → Except Fault α}
    (agrees : Agrees invariant strict (ask first) machine)
    (same : first machine = second machine) : Agrees invariant strict (ask second) machine := by
  obtain ⟨runs, keeps⟩ := agrees
  simp only [ask, same] at runs keeps
  exact ⟨runs, keeps⟩

theorem agrees_site_ask {result : Option α} {answer : α} {query : Machine → Except Fault α}
    (found : result = some answer) (asked : query machine = .ok answer)
    (holds : invariant machine) : Agrees invariant (site result) (ask query) machine := by
  subst found
  refine ⟨?_, ?_⟩
  · rw [Machine.ask_ok asked]
    rfl
  · rwa [Machine.ask_ok asked]

end Questions

end Strict

end VBed
