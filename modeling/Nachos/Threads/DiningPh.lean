import Nachos.Threads.Exclusion

/-! `DiningPh`: five philosophers who pick up and put down their sticks under one lock. -/

namespace Nachos.Threads.DiningPh

/-- The index of a philosopher in the arrays; `%` is what `+` does anyway with these numbers. -/
abbrev Philosopher := Fin 5

instance neZero_five : NeZero 5 := ⟨by decide⟩

/-- What a philosopher does. -/
inductive State where
  | thinking
  | hungry
  | eating
  deriving DecidableEq, Repr

/-- The calls of `test` in `pickup` and `putdown`. -/
inductive Test where
  /-- `test( who )` in `pickup`. -/
  | own
  /-- `test( (who + 4) % 5 )` in `putdown`. -/
  | left
  /-- `test( (who + 1) % 5 )` in `putdown`. -/
  | right
  deriving DecidableEq, Repr

/-- The philosopher that is tested. -/
def Test.target (who : Philosopher) : Test → Philosopher
  | .own => who
  | .left => who + 4
  | .right => who + 1

/-- Where a thread goes on in `pickup` or `putdown`, once it is outside the primitives. -/
inductive Phase where
  /-- It has not called `pickup`, or `putdown` has returned. -/
  | thinking
  /-- `pickup` has the lock. -/
  | pickup (who : Philosopher)
  /-- `test` looks at the philosopher and its neighbours. -/
  | test (who : Philosopher) (test : Test)
  /-- `test` signals the condition of the philosopher. -/
  | signal (who : Philosopher) (test : Test)
  /-- `pickup` looks whether it has to wait. -/
  | check (who : Philosopher)
  /-- `pickup` does not wait, or `Wait` has returned. -/
  | picked (who : Philosopher)
  /-- `pickup` has returned. -/
  | eating
  /-- `putdown` has the lock. -/
  | putdown (who : Philosopher)
  /-- `putdown` has tested both neighbours. -/
  | put (who : Philosopher)
  deriving DecidableEq, Repr

/-- Is the thread outside of the routines? -/
def Phase.isIdle : Phase → Bool
  | .thinking | .eating => true
  | .pickup _ | .test _ _ | .signal _ _ | .check _ | .picked _ | .putdown _ | .put _ => false

/-- Behind a call of `test`. -/
def Test.next (who : Philosopher) : Test → Phase
  | .own => .check who
  | .left => .test who .right
  | .right => .put who

/-- The routine that a thread calls. -/
inductive Entry where
  | pickup (who : Philosopher)
  | putdown (who : Philosopher)
  deriving DecidableEq, Repr

/-- Where the thread is behind `dp->Acquire()`. -/
def Entry.phase : Entry → Phase
  | .pickup who => .pickup who
  | .putdown who => .putdown who

/-- The array `state`. -/
abbrev Data := Philosopher → State

/-- The condition of `test`. -/
def mayEat (state : Data) (i : Philosopher) : Bool :=
  state (i + 4) ≠ .eating && state i = .hungry && state (i + 1) ≠ .eating

variable (dp : Nat) (self : Philosopher → Nat)

/-- Both routines begin with `dp->Acquire()`. -/
def enter (_ : Thread) (entry : Entry) (state : Data) : Except Fault (Outcome Data Phase) :=
  .ok ⟨state, some (.acquire dp), entry.phase⟩

/-- The statements behind it. -/
def go (_ : Thread) (phase : Phase) (_ : Unit) (state : Data) :
    Except Fault (Outcome Data Phase) :=
  match phase with
  | .thinking | .eating => .error .disabled
  -- `state[who] = Hungry`, and `test` is called for the philosopher itself.
  | .pickup who => .ok ⟨Function.update state who .hungry, none, .test who .own⟩
  | .test who test =>
    -- `test` compares with both neighbours before it lets anybody eat.
    if mayEat state (test.target who) then
      .ok ⟨Function.update state (test.target who) .eating, none, .signal who test⟩
    else .ok ⟨state, none, test.next who⟩
  | .signal who test => .ok ⟨state, some (.signal (self (test.target who)) dp), test.next who⟩
  | .check who =>
    -- An `if`, not a `while`: `Wait` itself repeats until it is signalled.
    if state who = .hungry then .ok ⟨state, some (.wait (self who) dp), .picked who⟩
    else .ok ⟨state, none, .picked who⟩
  | .picked _ => .ok ⟨state, some (.release dp), .eating⟩
  -- `putdown` tests the left neighbour first, then the right one.
  | .putdown who => .ok ⟨Function.update state who .thinking, none, .test who .left⟩
  | .put _ => .ok ⟨state, some (.release dp), .thinking⟩

/-- The table, with a lock and five conditions of its own; no device has to do with it. -/
def diningPh : Routines Data Phase Entry Unit Empty where
  owns object := object = .lock dp || (List.finRange 5).any fun i => object = .condition (self i)
  idle := Phase.isIdle
  enter := enter dp
  go := go dp self
  device := nofun

/-- The objects that the constructor makes. -/
def made : List (Object × Int) :=
  (.lock dp, 0) :: (List.finRange 5).map fun i => (.condition (self i), 0)

/-- The constructor has run, and nobody has used the table yet. -/
structure Init (dp : Nat) (cond : Philosopher → Nat) (main : Thread)
    (client : Client Data Phase) : Prop where
  made : (diningPh dp cond).Made (made dp cond) main client.kernel
  phases : ∀ thread, client.phase thread = .thinking
  states : ∀ i, client.data i = .thinking

/-- Every philosopher is a thread that picks up and puts down its own sticks in turn. -/
def Alternates (philo : Philosopher → Thread) (client : Client Data Phase) :
    Act Entry Unit Empty → Prop
  | .enter (.pickup who) => client.kernel.caller = some (philo who) ∧
    client.phase (philo who) = .thinking
  | .enter (.putdown who) => client.kernel.caller = some (philo who) ∧
    client.phase (philo who) = .eating
  | .go _ | .device _ | .other _ => True

/-- What a philosopher sees of the routines. -/
inductive Event where
  /-- `pickup` returns. -/
  | returned (who : Philosopher)
  /-- `putdown` is called. -/
  | called (who : Philosopher)
  deriving DecidableEq, Repr

/-- What can be seen of a step. -/
def observe (before : Client Data Phase) (act : Act Entry Unit Empty) (_ : Client Data Phase) :
    List Event :=
  match act with
  | .go _ =>
    match before.kernel.currentThread with
    | none => []
    | some thread =>
      match before.phase thread with
      | .picked who => [.returned who]
      | .thinking | .pickup _ | .test _ _ | .signal _ _ | .check _ | .eating | .putdown _
      | .put _ => []
  | .enter (.putdown who) => [.called who]
  | .enter (.pickup _) | .device _ | .other _ => []

/-- Who has the sticks behind an event. -/
def Event.apply (sticks : Philosopher → Bool) : Event → Philosopher → Bool
  | .returned who => Function.update sticks who true
  | .called who => Function.update sticks who false

/-- Who has the sticks: `pickup` has returned, and `putdown` has not been called since. -/
def hasSticks (history : List Event) : Philosopher → Bool :=
  history.foldl Event.apply fun _ => false

end Nachos.Threads.DiningPh
