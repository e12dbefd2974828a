/-! Finite runs of a system given by a step function that may fail, and their invariants. -/

namespace Runs

universe u v w x y

variable {σ : Type u} {α : Type v} {β : Type w} {ε : Type x} {δ : Type y}

/-- A sequence succeeds exactly when both of its halves do, one after the other. -/
theorem bind_eq_ok {γ δ : Type u} {first : Except ε γ} {second : γ → Except ε δ} {result : δ} :
    (first >>= second) = .ok result ↔ ∃ middle, first = .ok middle ∧ second middle = .ok result := by
  cases first with
  | error error => simp [Bind.bind, Except.bind]
  | ok middle => simp [Bind.bind, Except.bind]

/-- A sequence fails exactly when one of its halves does. -/
theorem bind_eq_error {γ δ : Type u} {first : Except ε γ} {second : γ → Except ε δ} {error : ε} :
    (first >>= second) = .error error ↔
      first = .error error ∨ ∃ middle, first = .ok middle ∧ second middle = .error error := by
  cases first with
  | error other => simp [Bind.bind, Except.bind]
  | ok middle => simp [Bind.bind, Except.bind]

/-- A sequence whose first half succeeds goes on with the second. -/
theorem ok_bind {γ δ : Type u} (value : γ) (second : γ → Except ε δ) :
    (Except.ok value >>= second) = second value := rfl

/-- Perform the actions in order, stopping at the first one that fails. -/
def run (step : σ → α → Except ε σ) : σ → List α → Except ε σ
  | state, [] => .ok state
  | state, action :: rest =>
    match step state action with
    | .ok next => run step next rest
    | .error error => .error error

/-- Every step the run takes meets the guard in the state it is taken from. -/
def Guarded (step : σ → α → Except ε σ) (guard : σ → α → Prop) : σ → List α → Prop
  | _, [] => True
  | state, action :: rest =>
    guard state action ∧
      match step state action with
      | .ok next => Guarded step guard next rest
      | .error _ => True

/-- Whether the steps of a run meet a decidable guard can be decided by taking them. -/
instance Guarded.decide (step : σ → α → Except ε σ) (guard : σ → α → Prop)
    [∀ state action, Decidable (guard state action)] :
    ∀ (state : σ) (actions : List α), Decidable (Guarded step guard state actions)
  | _, [] => .isTrue trivial
  | state, action :: rest =>
    have : Decidable (match step state action with
        | .ok next => Guarded step guard next rest
        | .error _ => True) :=
      match step state action with
      | .ok next => Guarded.decide step guard next rest
      | .error _ => .isTrue trivial
    inferInstanceAs (Decidable (_ ∧ _))

/-- The run succeeds, and its last state passes a check. -/
def runsTo (step : σ → α → Except ε σ) (state : σ) (actions : List α) (check : σ → Bool) : Bool :=
  match run step state actions with
  | .ok after => check after
  | .error _ => false

/-- What an observer records during a run, oldest first. -/
def record (step : σ → α → Except ε σ) (observe : σ → α → σ → List β) : σ → List α → List β
  | _, [] => []
  | state, action :: rest =>
    match step state action with
    | .ok next => observe state action next ++ record step observe next rest
    | .error _ => []

/-- States reached from an initial one by steps that all meet the guard. -/
inductive Reachable (step : σ → α → Except ε σ) (init : σ → Prop) (guard : σ → α → Prop) :
    σ → Prop
  | start {state : σ} : init state → Reachable step init guard state
  | next {state after : σ} {action : α} : Reachable step init guard state →
      guard state action → step state action = .ok after → Reachable step init guard after

/-- Reached states together with what an observer recorded at each step, oldest first. -/
inductive Traced (step : σ → α → Except ε σ) (init : σ → Prop) (guard : σ → α → Prop)
    (observe : σ → α → σ → List β) : σ → List β → Prop
  | start {state : σ} : init state → Traced step init guard observe state []
  | next {state after : σ} {action : α} {history : List β} :
      Traced step init guard observe state history → guard state action →
      step state action = .ok after →
      Traced step init guard observe after (history ++ observe state action after)

/-- A specification that keeps a state of its own allows every event of a history in turn. -/
def Accepts (apply : δ → β → δ) (allows : δ → β → Prop) : δ → List β → Prop
  | _, [] => True
  | state, event :: rest => allows state event ∧ Accepts apply allows (apply state event) rest

/-- Whether a history is accepted can be decided event by event. -/
instance Accepts.decide (apply : δ → β → δ) (allows : δ → β → Prop)
    [∀ state event, Decidable (allows state event)] :
    ∀ (state : δ) (history : List β), Decidable (Accepts apply allows state history)
  | _, [] => .isTrue trivial
  | state, event :: rest =>
    have := Accepts.decide apply allows (apply state event) rest
    inferInstanceAs (Decidable (_ ∧ _))

/-- A history is accepted when its later part is accepted from where its earlier part ended. -/
theorem accepts_append {apply : δ → β → δ} {allows : δ → β → Prop} {state : δ}
    {earlier later : List β} :
    Accepts apply allows state (earlier ++ later) ↔ Accepts apply allows state earlier ∧
      Accepts apply allows (earlier.foldl apply state) later := by
  -- The specification reads the earlier events first, one at a time.
  induction earlier generalizing state with
  | nil => simp [Accepts]
  | cons event rest ih => simp [Accepts, ih, and_assoc]

/-- The last event of an accepted history was allowed when it happened. -/
theorem Accepts.last {apply : δ → β → δ} {allows : δ → β → Prop} {state : δ} {earlier : List β}
    {event : β} (accepted : Accepts apply allows state (earlier ++ [event])) :
    allows (earlier.foldl apply state) event :=
  (accepts_append.mp accepted).2.1

/-- A specification that allows more accepts more. -/
theorem Accepts.mono {apply : δ → β → δ} {allows weaker : δ → β → Prop} {state : δ}
    {history : List β} (accepted : Accepts apply allows state history)
    (implied : ∀ state event, allows state event → weaker state event) :
    Accepts apply weaker state history := by
  induction history generalizing state with
  | nil => trivial
  | cons event rest ih => exact ⟨implied state event accepted.1, ih accepted.2⟩

/-- A history of events that are allowed in every state is accepted. -/
theorem accepts_of_forall {apply : δ → β → δ} {allows : δ → β → Prop} {history : List β}
    (allowed : ∀ event ∈ history, ∀ state, allows state event) (state : δ) :
    Accepts apply allows state history := by
  induction history generalizing state with
  | nil => trivial
  | cons event rest ih =>
    refine ⟨allowed event List.mem_cons_self state, ih (fun other member => ?_) _⟩
    exact allowed other (List.mem_cons_of_mem _ member)

variable {step : σ → α → Except ε σ} {init : σ → Prop} {guard : σ → α → Prop}
  {observe : σ → α → σ → List β}

/-- What holds at the start and survives every guarded step holds in every reached state. -/
theorem Reachable.invariant (Inv : σ → Prop) (base : ∀ state, init state → Inv state)
    (preserve : ∀ state action after, Inv state → guard state action →
      step state action = .ok after → Inv after)
    {state : σ} (reached : Reachable step init guard state) : Inv state := by
  -- Each constructor of reachability is one of the two hypotheses.
  induction reached with
  | start initial => exact base _ initial
  | next _ allowed stepped ih => exact preserve _ _ _ ih allowed stepped

/-- A weaker guard admits every run the stronger one does. -/
theorem Reachable.mono {weaker : σ → α → Prop}
    (implied : ∀ state action, guard state action → weaker state action)
    {state : σ} (reached : Reachable step init guard state) :
    Reachable step init weaker state := by
  -- The same actions are taken, and each one is still admitted.
  induction reached with
  | start initial => exact .start initial
  | next _ allowed stepped ih => exact .next ih (implied _ _ allowed) stepped

/-- An invariant may also speak about the recorded history. -/
theorem Traced.invariant (Inv : σ → List β → Prop) (base : ∀ state, init state → Inv state [])
    (preserve : ∀ state action after history, Inv state history → guard state action →
      step state action = .ok after → Inv after (history ++ observe state action after))
    {state : σ} {history : List β} (traced : Traced step init guard observe state history) :
    Inv state history := by
  -- The history grows by exactly one observation per step.
  induction traced with
  | start initial => exact base _ initial
  | next _ allowed stepped ih => exact preserve _ _ _ _ ih allowed stepped

/--
A system refines a specification when every step does what the specification allows.

The specification starts in its own initial state, and reads what is recorded at each step.
-/
theorem Traced.refines {apply : δ → β → δ} {allows : δ → β → Prop} {initial : δ}
    (Rel : σ → δ → Prop) (base : ∀ state, init state → Rel state initial)
    (simulate : ∀ state action after spec, Rel state spec → guard state action →
      step state action = .ok after → Accepts apply allows spec (observe state action after) ∧
        Rel after ((observe state action after).foldl apply spec))
    {state : σ} {history : List β} (traced : Traced step init guard observe state history) :
    Accepts apply allows initial history ∧ Rel state (history.foldl apply initial) := by
  -- The specification is always where the history so far has taken it.
  induction traced with
  | start started => exact ⟨trivial, base _ started⟩
  | next _ allowed stepped ih =>
    have simulated := simulate _ _ _ _ ih.2 allowed stepped
    rw [List.foldl_append]
    exact ⟨accepts_append.mpr ⟨ih.1, simulated.1⟩, simulated.2⟩

/-- A run that passes a check has a last state to speak about. -/
theorem exists_of_runsTo {state : σ} {actions : List α} {check : σ → Bool}
    (passed : runsTo step state actions check = true) :
    ∃ after, run step state actions = .ok after ∧ check after = true := by
  unfold runsTo at passed
  cases ran : run step state actions with
  | error error => simp [ran] at passed
  | ok after => exact ⟨after, rfl, by simpa [ran] using passed⟩

/-- A run of actions that are admitted everywhere is guarded. -/
theorem guarded_of_forall {actions : List α}
    (allowed : ∀ state, ∀ action ∈ actions, guard state action) (state : σ) :
    Guarded step guard state actions := by
  induction actions generalizing state with
  | nil => trivial
  | cons action rest ih =>
    have later := ih fun state other member => allowed state other (List.mem_cons_of_mem _ member)
    refine ⟨allowed state action List.mem_cons_self, ?_⟩
    cases step state action with
    | error error => trivial
    | ok next => exact later next

/-- A guarded run extends reachability from its first state to its last. -/
theorem Reachable.extend {actions : List α} {state after : σ}
    (reached : Reachable step init guard state) (guarded : Guarded step guard state actions)
    (ran : run step state actions = .ok after) : Reachable step init guard after := by
  -- The first action reaches a new state, from which the rest of the run continues.
  induction actions generalizing state with
  | nil =>
    simp only [run, Except.ok.injEq] at ran
    exact ran ▸ reached
  | cons action rest ih =>
    obtain ⟨allowed, later⟩ := guarded
    cases stepped : step state action with
    | error error => simp [run, stepped] at ran
    | ok next =>
      simp only [stepped] at later
      simp only [run, stepped] at ran
      exact ih (.next reached allowed stepped) later ran

/-- A guarded run extends a traced one by what is recorded during it. -/
theorem Traced.extend {actions : List α} {state after : σ} {history : List β}
    (traced : Traced step init guard observe state history)
    (guarded : Guarded step guard state actions) (ran : run step state actions = .ok after) :
    Traced step init guard observe after (history ++ record step observe state actions) := by
  -- Each action adds its own observation behind the history so far.
  induction actions generalizing state history with
  | nil =>
    simp only [run, Except.ok.injEq] at ran
    simpa [record, ran] using traced
  | cons action rest ih =>
    obtain ⟨allowed, later⟩ := guarded
    cases stepped : step state action with
    | error error => simp [run, stepped] at ran
    | ok next =>
      simp only [stepped] at later
      simp only [run, stepped] at ran
      simp only [record, stepped, ← List.append_assoc]
      exact ih (.next traced allowed stepped) later ran

end Runs
