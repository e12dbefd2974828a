import Nachos.Threads.DiningPh

/-! Neighbours at the table never eat at the same time, and who has picked up its sticks eats. -/

namespace Nachos.Threads.DiningPh

variable {dp : Nat} {self : Philosopher → Nat} {philo : Philosopher → Thread} {main thread : Thread}
  {client next : Client Data Phase} {act : Act Entry Unit Empty} {phase : Phase} {place : Place}
  {state : Data} {who i : Philosopher} {test : Test} {kernel after : Kernel}

/-- Where a thread can sleep in each phase. -/
def rests (dp : Nat) (self : Philosopher → Nat) : Phase → Place → Prop
  | .pickup _, place | .putdown _, place => place = .inAcquire dp
  | .picked who, place => place = .inWait (self who) dp ∨ place = .inAcquire dp
  | .thinking, _ | .test _ _, _ | .signal _ _, _ | .check _, _ | .eating, _ | .put _, _ => False

/-- A thread is inside from `dp->Acquire()` to `dp->Release()`. -/
def inside (phase : Phase) : Bool := !phase.isIdle

/-- The philosopher whose routine a thread is in. -/
def Phase.philosopher : Phase → Option Philosopher
  | .thinking | .eating => none
  | .pickup who | .test who _ | .signal who _ | .check who | .picked who | .putdown who
  | .put who => some who

/-- The statements of the two routines. -/
inductive Does (dp : Nat) (self : Philosopher → Nat) : Act Entry Unit Empty → Phase → Data →
    Outcome Data Phase → Prop
  | acquire {phase : Phase} {state : Data} (entry : Entry) (idle : phase.isIdle = true) :
      Does dp self (.enter entry) phase state ⟨state, some (.acquire dp), entry.phase⟩
  | pickup {state : Data} (who : Philosopher) :
      Does dp self (.go ()) (.pickup who) state
        ⟨Function.update state who .hungry, none, .test who .own⟩
  | eats {state : Data} (who : Philosopher) (test : Test) (may : mayEat state (test.target who) = true) :
      Does dp self (.go ()) (.test who test) state
        ⟨Function.update state (test.target who) .eating, none, .signal who test⟩
  | passes {state : Data} (who : Philosopher) (test : Test)
      (may : mayEat state (test.target who) = false) :
      Does dp self (.go ()) (.test who test) state ⟨state, none, test.next who⟩
  | signal {state : Data} (who : Philosopher) (test : Test) :
      Does dp self (.go ()) (.signal who test) state
        ⟨state, some (.signal (self (test.target who)) dp), test.next who⟩
  | waits {state : Data} (who : Philosopher) (hungry : state who = .hungry) :
      Does dp self (.go ()) (.check who) state ⟨state, some (.wait (self who) dp), .picked who⟩
  | stays {state : Data} (who : Philosopher) (fed : state who ≠ .hungry) :
      Does dp self (.go ()) (.check who) state ⟨state, none, .picked who⟩
  | picked {state : Data} (who : Philosopher) :
      Does dp self (.go ()) (.picked who) state ⟨state, some (.release dp), .eating⟩
  | putdown {state : Data} (who : Philosopher) :
      Does dp self (.go ()) (.putdown who) state
        ⟨Function.update state who .thinking, none, .test who .left⟩
  | put {state : Data} (who : Philosopher) :
      Does dp self (.go ()) (.put who) state ⟨state, some (.release dp), .thinking⟩

/-- Every statement is one of these. -/
theorem does_of_statement {outcome : Outcome Data Phase}
    (did : (diningPh dp self).statement act thread phase state = .ok outcome) :
    Does dp self act phase state outcome := by
  cases act with
  | enter entry =>
    simp only [Routines.statement] at did
    split at did
    · -- A routine is called only in a phase that is idle.
      rename_i idle
      obtain rfl := Except.ok.inj did
      exact .acquire entry idle
    · cases did
  | go choice =>
    cases phase with
    -- Between the routines there is nothing to go on with.
    | thinking | eating => cases did
    | pickup who =>
      obtain rfl := Except.ok.inj did
      exact .pickup who
    | test who test =>
      have statement : (diningPh dp self).statement (.go choice) thread (.test who test) state =
          if mayEat state (test.target who) then
            .ok ⟨Function.update state (test.target who) .eating, none, .signal who test⟩
          else .ok ⟨state, none, test.next who⟩ := rfl
      rw [statement] at did
      -- The test succeeds, or the routine goes on behind it.
      split at did
      · obtain rfl := Except.ok.inj did
        exact .eats who test ‹_›
      · obtain rfl := Except.ok.inj did
        exact .passes who test (by simpa using ‹¬ mayEat state (test.target who) = true›)
    | signal who test =>
      obtain rfl := Except.ok.inj did
      exact .signal who test
    | check who =>
      have statement : (diningPh dp self).statement (.go choice) thread (.check who) state =
          if state who = .hungry then .ok ⟨state, some (.wait (self who) dp), .picked who⟩
          else .ok ⟨state, none, .picked who⟩ := rfl
      rw [statement] at did
      -- The philosopher is still hungry and has to wait, or was allowed to eat.
      split at did
      · obtain rfl := Except.ok.inj did
        exact .waits who ‹_›
      · obtain rfl := Except.ok.inj did
        exact .stays who ‹_›
    | picked who =>
      obtain rfl := Except.ok.inj did
      exact .picked who
    | putdown who =>
      obtain rfl := Except.ok.inj did
      exact .putdown who
    | put who =>
      obtain rfl := Except.ok.inj did
      exact .put who
  | device | other => cases did

/-- The lock and the conditions belong to the table. -/
theorem owns_iff {object : Object} : (diningPh dp self).owns object = true ↔
    object = .lock dp ∨ ∃ i, object = .condition (self i) := by
  simp [diningPh]

/-- Programs can name neither the lock nor the conditions by another name. -/
theorem disciplined : Disciplined (diningPh dp self) (rests dp self) where
  isPublic object owned := by
    -- None of these objects has a name that a program could use.
    rcases owns_iff.mp owned with rfl | ⟨i, rfl⟩ <;> rfl
  calls act thread phase data outcome did call calls := by
    cases does_of_statement did with
    | acquire entry idle =>
      obtain rfl := Option.some.inj calls
      refine ⟨by simp [Call.objects, diningPh], fun place sleeps => ?_⟩
      cases entry with
      -- A thread that wants the lock may sleep for it, in the phase it will be in then.
      | pickup who | putdown who => exact ⟨rfl, sleeps⟩
    | signal who test =>
      obtain rfl := Option.some.inj calls
      exact ⟨by simp [Call.objects, diningPh], fun place sleeps => sleeps.elim⟩
    | waits who hungry =>
      obtain rfl := Option.some.inj calls
      -- A thread that waits sleeps at its own condition, and later for the lock.
      exact ⟨by simp [Call.objects, diningPh], fun place sleeps => ⟨rfl, sleeps⟩⟩
    | picked who | put who =>
      obtain rfl := Option.some.inj calls
      exact ⟨by simp [Call.objects, diningPh], fun place sleeps => sleeps.elim⟩
    | pickup | eats | passes | stays | putdown => cases calls
  owned phase place rested := by
    cases phase with
    | pickup | putdown =>
      simp [show place = .inAcquire dp from rested, Place.touches, diningPh]
    | picked => rcases rested with rfl | rfl <;> simp [Place.touches, diningPh]
    | thinking | test | signal | check | eating | put => exact rested.elim
  reacquires phase condition held rested := by
    cases phase with
    | pickup | putdown => cases rested
    | picked =>
      -- A thread that was woken wants the lock again, in the same phase.
      rcases rested with same | same
      · cases same
        exact .inr rfl
      · cases same
    | thinking | test | signal | check | eating | put => exact rested.elim

/-- The lock is taken and given back by turns. -/
theorem locking : Locking (diningPh dp self) dp inside where
  owned := by simp [diningPh]
  silent act thread phase data outcome did silent := by
    -- None of these statements leaves the routines.
    cases does_of_statement did with
    | pickup | eats | stays | putdown => rfl
    | passes who test => cases test <;> rfl
    | acquire | signal | waits | picked | put => cases silent
  acquires act thread phase data outcome did calls := by
    cases does_of_statement did with
    -- The lock is taken on the way in.
    | acquire entry idle => exact ⟨by simp [inside, idle], by cases entry <;> rfl⟩
    | pickup | eats | passes | signal | waits | stays | picked | putdown | put => cases calls
  releases act thread phase data outcome did calls := by
    cases does_of_statement did with
    -- It is given back on the way out.
    | picked | put => exact ⟨rfl, rfl⟩
    | acquire | pickup | eats | passes | signal | waits | stays | putdown => cases calls
  waits act thread phase data outcome condition did calls := by
    cases does_of_statement did with
    -- `Wait` gives it back as well, and has it again when it returns.
    | waits => exact ⟨rfl, rfl⟩
    | acquire | pickup | eats | passes | signal | stays | picked | putdown | put => cases calls
  others act thread phase data outcome call did calls spares := by
    cases does_of_statement did with
    -- Signalling changes nothing about the lock.
    | signal who test => cases test <;> rfl
    | acquire | waits | picked | put =>
      obtain rfl := Option.some.inj calls
      exact absurd rfl spares
    | pickup | eats | passes | stays | putdown => cases calls

/-- What a philosopher does while its thread is in a phase. -/
def Meal : Phase → State → Prop
  | .thinking, state | .pickup _, state | .test _ .left, state | .signal _ .left, state
  | .test _ .right, state | .signal _ .right, state | .put _, state => state = .thinking
  | .test _ .own, state => state = .hungry
  | .signal _ .own, state | .eating, state | .putdown _, state => state = .eating
  | .check _, state | .picked _, state => state ≠ .thinking

/-- A philosopher is hungry or eats as its thread says, and is woken when it eats. -/
structure Seated (dp : Nat) (cond : Philosopher → Nat) (philo : Philosopher → Thread)
    (client : Client Data Phase) (i : Philosopher) : Prop where
  meal : Meal (client.phase (philo i)) (client.data i)
  asleep : client.kernel.place (philo i) = .inWait (cond i) dp →
    philo i ∈ client.kernel.queue (.condition (cond i)) ∧ client.kernel.isBusy (cond i) = true ∨
      philo i ∉ client.kernel.queue (.condition (cond i)) ∧
        client.kernel.isBusy (cond i) = false ∧ client.data i = .eating
  awake : client.kernel.place (philo i) ≠ .inWait (cond i) dp →
    client.kernel.isBusy (cond i) = true ∧
      (client.phase (philo i) = .picked i → client.data i = .eating)

/-- Steps that do not concern the philosopher. -/
theorem Seated.frame (seated : Seated dp self philo client i)
    (place : next.kernel.place (philo i) = .inWait (self i) dp ↔
      client.kernel.place (philo i) = .inWait (self i) dp)
    (queue : next.kernel.queue (.condition (self i)) = client.kernel.queue (.condition (self i)))
    (busy : next.kernel.isBusy (self i) = client.kernel.isBusy (self i))
    (phase : next.phase (philo i) = client.phase (philo i))
    (data : next.data i = client.data i) : Seated dp self philo next i where
  meal := by
    rw [phase, data]
    exact seated.meal
  -- The place, the queue and the flag are those of before.
  asleep there := by
    rw [queue, busy, data]
    exact seated.asleep (place.mp there)
  awake elsewhere := by
    rw [busy, phase, data]
    exact seated.awake fun there => elsewhere (place.mpr there)

/-- The thread of the philosopher goes on, and does not wait. -/
theorem Seated.turn (seated : Seated dp self philo client i)
    (before : client.kernel.place (philo i) ≠ .inWait (self i) dp)
    (later : next.kernel.place (philo i) ≠ .inWait (self i) dp)
    (busy : next.kernel.isBusy (self i) = client.kernel.isBusy (self i))
    (meal : Meal (next.phase (philo i)) (next.data i))
    (picked : next.phase (philo i) = .picked i → next.data i = .eating) :
    Seated dp self philo next i where
  meal := meal
  -- The thread does not wait, so there is nothing to show about its queue.
  asleep there := absurd there later
  awake _ := ⟨busy.trans (seated.awake before).1, picked⟩

/-- A philosopher that waits is given its sticks by a neighbour. -/
theorem Seated.feed (seated : Seated dp self philo client i)
    (waits : client.phase (philo i) = .picked i) (kernel : next.kernel = client.kernel)
    (phase : next.phase (philo i) = client.phase (philo i)) (eats : next.data i = .eating) :
    Seated dp self philo next i where
  meal := by simp [phase, waits, eats, Meal]
  asleep there := by
    rw [kernel] at there ⊢
    -- It is still in the queue, or it was signalled and eats now.
    rcases seated.asleep there with queued | ⟨woken, free, -⟩
    · exact .inl queued
    · exact .inr ⟨woken, free, eats⟩
  awake elsewhere := by
    rw [kernel] at elsewhere ⊢
    exact ⟨(seated.awake elsewhere).1, fun _ => eats⟩

/-- Conditions are what threads wait at. -/
def isCondition : Object → Bool
  | .condition _ => true
  | .semaphore _ | .lock _ | .mutex _ | .barrier _ => false

/-- Nobody begins or ends to wait while the conditions are left alone. -/
theorem waits_iff (untouched : Untouched isCondition kernel after) (thread : Thread)
    (condition lock : Nat) :
    after.place thread = .inWait condition lock ↔ kernel.place thread = .inWait condition lock := by
  rcases untouched.places thread with same | ⟨before, later⟩
  · -- The place is the same, or neither of them is at a condition.
    rw [same]
  · refine ⟨fun there => ?_, fun there => ?_⟩
    · simp [there, Place.touches, isCondition] at later
    · simp [there, Place.touches, isCondition] at before

/-- The philosophers are seated, and the table is laid for them. -/
structure Dining (dp : Nat) (cond : Philosopher → Nat) (philo : Philosopher → Thread)
    (client : Client Data Phase) : Prop where
  owned : ∀ thread who, (client.phase thread).philosopher = some who → thread = philo who
  seated : ∀ i, Seated dp cond philo client i
  /-- Who is about to be signalled eats. -/
  fed : ∀ thread who test, client.phase thread = .signal who test →
    client.data (test.target who) = .eating
  apart : ∀ i, client.data i = .eating → client.data (i + 1) ≠ .eating

/-- A thread is in the routine of one philosopher only. -/
theorem owned_update
    (owned : ∀ thread who, (client.phase thread).philosopher = some who → thread = philo who)
    (mine : ∀ who, phase.philosopher = some who → thread = philo who) :
    ∀ other who, (Function.update client.phase thread phase other).philosopher = some who →
      other = philo who := by
  intro other who is
  -- Only the phase of this thread is another one.
  by_cases same : other = thread
  · rw [same, Function.update_self] at is
    exact same.trans (mine who is)
  · rw [Function.update_of_ne same] at is
    exact owned other who is

/-- Whoever goes on inside is alone in the phases in which nobody sleeps. -/
theorem sole (positioned : Positioned (diningPh dp self) (rests dp self) client.kernel client.phase)
    (exclusive : Exclusive dp client.kernel fun thread => inside (client.phase thread) = true)
    (within : inside (client.phase thread) = true)
    (outside : client.kernel.place thread = .outside) {other : Thread}
    (also : inside (client.phase other) = true)
    (standing : ∀ place, ¬ rests dp self (client.phase other) place) : other = thread := by
  -- The other thread is inside, too, and cannot rest in its phase, so it goes on.
  have busy : (diningPh dp self).idle (client.phase other) = false := by
    show (client.phase other).isIdle = false
    simpa [inside] using also
  have there := (positioned.busy other busy).resolve_right (standing _)
  refine exclusive.unique within ?_ also ?_
  · rw [outside]
    rfl
  · rw [there]
    rfl

/-- A thread goes on to another phase, and neither the states nor the conditions change. -/
theorem Dining.move (dining : Dining dp self philo client) (threads : Function.Injective philo)
    (untouched : Untouched isCondition client.kernel after)
    (outside : client.kernel.place (philo who) = .outside)
    (mine : ∀ other, phase.philosopher = some other → other = who)
    (meal : Meal phase (client.data who))
    (picked : phase = .picked who → client.data who = .eating)
    (signals : ∀ other test, phase ≠ .signal other test) :
    Dining dp self philo
      ⟨after, client.data, Function.update client.phase (philo who) phase⟩ where
  owned := owned_update dining.owned fun other is => by rw [mine other is]
  seated i := by
    have waits := waits_iff untouched (philo i) (self i) dp
    have queue := untouched.queue (.condition (self i)) rfl
    have busy := untouched.isBusy (self i) rfl
    -- The thread of `who` goes on, and all others stay where they are.
    by_cases same : i = who
    · subst same
      have awake : client.kernel.place (philo i) ≠ .inWait (self i) dp := by simp [outside]
      refine (dining.seated i).turn awake (fun there => awake (waits.mp there)) busy ?_ ?_
      · simpa using meal
      · simpa using picked
    · have differ : philo i ≠ philo who := fun equal => same (threads equal)
      exact (dining.seated i).frame waits queue busy (Function.update_of_ne differ _ _) rfl
  fed other number test is := by
    -- The new phase is not about to signal, so only the others may be.
    by_cases same : other = philo who
    · simp only [same, Function.update_self] at is
      exact (signals number test is).elim
    · simp only [Function.update_of_ne same] at is
      exact dining.fed other number test is
  apart := dining.apart

/-- A thread changes what its own philosopher does, who does not eat from then on. -/
theorem Dining.set {later : State} (dining : Dining dp self philo client)
    (threads : Function.Injective philo) (outside : client.kernel.place (philo who) = .outside)
    (alone : ∀ other number test, client.phase other = .signal number test → other = philo who)
    (mine : ∀ other, phase.philosopher = some other → other = who)
    (meal : Meal phase later) (picked : phase ≠ .picked who)
    (signals : ∀ other test, phase ≠ .signal other test) (fasts : later ≠ .eating) :
    Dining dp self philo ⟨client.kernel, Function.update client.data who later,
      Function.update client.phase (philo who) phase⟩ where
  owned := owned_update dining.owned fun other is => by rw [mine other is]
  seated i := by
    -- The philosopher itself has another state, and its thread another phase.
    by_cases same : i = who
    · subst same
      have awake : client.kernel.place (philo i) ≠ .inWait (self i) dp := by simp [outside]
      refine (dining.seated i).turn awake awake rfl ?_ ?_
      · simpa using meal
      · simp [picked]
    · have differ : philo i ≠ philo who := fun equal => same (threads equal)
      exact (dining.seated i).frame Iff.rfl rfl rfl (Function.update_of_ne differ _ _)
        (Function.update_of_ne same _ _)
  fed other number test is := by
    by_cases same : other = philo who
    · simp only [same, Function.update_self] at is
      exact (signals number test is).elim
    · simp only [Function.update_of_ne same] at is
      -- A thread that is about to signal would be inside, and the only one there is this one.
      exact (same (alone other number test is)).elim
  apart i := by
    -- Whoever eats now has eaten before, since the new state is not eating.
    have kept (other : Philosopher) (eats : Function.update client.data who later other = .eating) :
        client.data other = .eating := by
      by_cases same : other = who
      · rw [same, Function.update_self] at eats
        exact (fasts eats).elim
      · rwa [Function.update_of_ne same] at eats
    exact fun eats also => dining.apart i (kept i eats) (kept _ also)

/-- A hungry philosopher is tested by its own thread, or waits. -/
theorem Dining.waiting (dining : Dining dp self philo client) (threads : Function.Injective philo)
    (hungry : client.data i = .hungry)
    (alone : ∀ other, inside (client.phase other) = true →
      (∀ place, ¬ rests dp self (client.phase other) place) → other = thread)
    (differ : philo i ≠ thread) : client.phase (philo i) = .picked i := by
  have meal := (dining.seated i).meal
  rw [hungry] at meal
  cases is : client.phase (philo i) with
  -- It has looked at its state and goes to sleep, or does so already.
  | picked who => rw [threads (dining.owned (philo i) who (by rw [is]; rfl))]
  -- If it went on inside, it would be the thread that tests.
  | check who => exact (differ (alone _ (by rw [is]; rfl) (by simp [is, rests]))).elim
  | test who test => exact (differ (alone _ (by rw [is]; rfl) (by simp [is, rests]))).elim
  -- A philosopher that is signalled for does not stay hungry.
  | signal who test => cases test <;> simp [is, Meal] at meal
  | thinking | pickup | eating | putdown | put => simp [is, Meal] at meal

/-- A philosopher is not its own neighbour. -/
theorem Test.target_ne (who : Philosopher) (test : Test) (neighbour : test ≠ .own) :
    test.target who ≠ who := by
  cases test with
  | own => exact (neighbour rfl).elim
  | left =>
    have differ : ∀ who : Philosopher, who + 4 ≠ who := by decide
    exact differ who
  | right =>
    have differ : ∀ who : Philosopher, who + 1 ≠ who := by decide
    exact differ who

/-- `test` lets a philosopher eat, whose neighbours do not. -/
theorem Dining.eat (dining : Dining dp self philo client) (threads : Function.Injective philo)
    (outside : client.kernel.place (philo who) = .outside)
    (is : client.phase (philo who) = .test who test)
    (alone : ∀ other, inside (client.phase other) = true →
      (∀ place, ¬ rests dp self (client.phase other) place) → other = philo who)
    (may : mayEat client.data (test.target who) = true) :
    Dining dp self philo ⟨client.kernel, Function.update client.data (test.target who) .eating,
      Function.update client.phase (philo who) (.signal who test)⟩ where
  owned := owned_update dining.owned fun other same => by cases same; rfl
  seated i := by
    simp only [mayEat, Bool.and_eq_true, decide_eq_true_eq] at may
    -- The thread that tests, the philosopher that is tested, and everybody else.
    by_cases same : i = who
    · subst same
      have awake : client.kernel.place (philo i) ≠ .inWait (self i) dp := by simp [outside]
      have meal := (dining.seated i).meal
      rw [is] at meal
      refine (dining.seated i).turn awake awake rfl ?_ (by simp)
      -- In `pickup` the philosopher tests itself, in `putdown` one of its neighbours.
      cases test with
      | own => simp [Test.target, Meal]
      | left | right =>
        simp only [Function.update_self]
        rw [Function.update_of_ne (Test.target_ne i _ (by simp)).symm]
        exact meal
    · have differ : philo i ≠ philo who := fun equal => same (threads equal)
      by_cases tested : i = test.target who
      · subst tested
        -- The tested philosopher was hungry, so its thread waits, and now it may go on.
        exact (dining.seated _).feed (dining.waiting threads may.1.2 alone differ) rfl
          (Function.update_of_ne differ _ _) (Function.update_self _ _ _)
      · exact (dining.seated i).frame Iff.rfl rfl rfl (Function.update_of_ne differ _ _)
          (Function.update_of_ne tested _ _)
  fed other number tested now := by
    -- The thread that tests is about to signal now, and it is the only such thread.
    by_cases same : other = philo who
    · simp only [same, Function.update_self, Phase.signal.injEq] at now
      obtain ⟨rfl, rfl⟩ := now
      exact Function.update_self _ _ _
    · simp only [Function.update_of_ne same] at now
      exact (same (alone other (by rw [now]; rfl) (by simp [now, rests]))).elim
  apart i := by
    simp only [mayEat, Bool.and_eq_true, decide_eq_true_eq] at may
    obtain ⟨⟨left, -⟩, right⟩ := may
    have apart := dining.apart i
    dsimp only
    have around : ∀ i : Philosopher, i + 1 + 4 = i := by decide
    have next : ∀ i : Philosopher, i + 1 ≠ i := by decide
    by_cases first : i = test.target who
    · -- The neighbour on the right does not eat.
      subst first
      rw [Function.update_of_ne (next _)]
      exact fun _ => right
    · -- Somebody else eats as before, so only its right neighbour may be new.
      rw [Function.update_of_ne first]
      by_cases second : i + 1 = test.target who
      · -- Nor does the one on the left.
        rw [← second, around] at left
        exact fun eats => absurd eats left
      · rw [Function.update_of_ne second]
        exact apart

/-- The conditions belong to the table. -/
theorem owns_condition (i : Philosopher) :
    (diningPh dp self).owns (.condition (self i)) = true :=
  owns_iff.mpr (.inr ⟨i, rfl⟩)

/-- Who is at none of the objects of the table does not wait for a philosopher. -/
theorem not_waits_of_away (away : place.touches (diningPh dp self).owns = false) :
    place ≠ .inWait (self i) dp := by
  rintro rfl
  simp [Place.touches, owns_condition] at away

/-- Only the thread of a philosopher waits at its condition. -/
theorem Dining.waiters (dining : Dining dp self philo client)
    (selves : Function.Injective self)
    (positioned : Positioned (diningPh dp self) (rests dp self) client.kernel client.phase)
    (scheduled : Scheduled (fun object => client.kernel.life object = .deleted) client.kernel)
    (member : thread ∈ client.kernel.queue (.condition (self i))) :
    thread = philo i ∧ client.kernel.place thread = .inWait (self i) dp := by
  obtain ⟨-, there, -⟩ := scheduled.queued thread _ member
  cases placed : client.kernel.place thread with
  | inWait condition lock =>
    simp only [placed, Place.object, Option.some.injEq, Object.condition.injEq] at there
    subst there
    -- Whoever sleeps at an object of the table is in one of the routines.
    have busy : (diningPh dp self).idle (client.phase thread) = false := by
      rw [← Bool.not_eq_true]
      intro quiet
      have away := positioned.idle thread quiet
      simp [placed, Place.touches, owns_condition] at away
    have rested := (positioned.busy thread busy).resolve_left (by simp [placed])
    rw [placed] at rested
    -- The phase says at which place it can sleep.
    cases is : client.phase thread with
    | picked who =>
      rw [is] at rested
      -- It is inside of `Wait`, at the condition of its own philosopher.
      rcases rested with same | same
      · simp only [Place.inWait.injEq] at same
        obtain ⟨equal, rfl⟩ := same
        rw [selves equal]
        exact ⟨dining.owned thread who (by rw [is]; rfl), rfl⟩
      · cases same
    -- It waits for the lock, which is no condition.
    | pickup | putdown =>
      rw [is] at rested
      cases rested
    | thinking | test | signal | check | eating | put =>
      rw [is] at rested
      exact rested.elim
  -- At these places a thread is in the queue of no condition.
  | outside | finished | inP | inAcquire | inLock | inBarrier =>
    simp [placed, Place.object] at there

/-- What `Signal` does for a thread that has the lock. -/
theorem signal_of_held {lock : Nat} (held : kernel.isHeldBy lock thread = true)
    (condition : Nat) :
    kernel.signal thread condition lock = kernel ∧ kernel.queue (.condition condition) = [] ∨
      ∃ first rest, kernel.queue (.condition condition) = first :: rest ∧
        (kernel.signal thread condition lock).queue =
          Function.update kernel.queue (.condition condition) rest ∧
        (kernel.signal thread condition lock).isBusy =
          Function.update kernel.isBusy condition false := by
  unfold Kernel.signal
  rw [if_pos held]
  -- Nobody waits, so nothing happens.
  split
  · rename_i empty
    exact .inl ⟨rfl, empty⟩
  · -- The first one is taken from the queue, and the flag is cleared for it.
    rename_i first rest queue
    exact .inr ⟨first, rest, queue, by simp [queue], by simp⟩

/-- `test` signals a philosopher that eats, and wakes it if it waits. -/
theorem Dining.signal (dining : Dining dp self philo client) (threads : Function.Injective philo)
    (selves : Function.Injective self)
    (positioned : Positioned (diningPh dp self) (rests dp self) client.kernel client.phase)
    (scheduled : Scheduled (fun object => client.kernel.life object = .deleted) client.kernel)
    (outside : client.kernel.place (philo who) = .outside)
    (is : client.phase (philo who) = .signal who test)
    (held : client.kernel.isHeldBy dp (philo who) = true) :
    Dining dp self philo ⟨client.kernel.signal (philo who) (self (test.target who)) dp,
      client.data, Function.update client.phase (philo who) (test.next who)⟩ := by
  have eats := dining.fed (philo who) who test is
  have own := (dining.seated who).meal
  rw [is] at own
  -- The routine goes on for the same philosopher.
  have mine : ∀ other, (test.next who).philosopher = some other → other = who := by
    intro other same
    cases test <;> cases same <;> rfl
  -- Signalling does not change what its own philosopher does.
  have meal : Meal (test.next who) (client.data who) := by
    cases test with
    | own =>
      have eats : client.data who = .eating := own
      simp [Test.next, Meal, eats]
    | left => exact own
    | right => exact own
  have picked : test.next who = .picked who → client.data who = .eating := by
    cases test <;> exact nofun
  have signals : ∀ other tested, test.next who ≠ .signal other tested := by
    intro other tested
    cases test <;> exact nofun
  rcases signal_of_held held (self (test.target who)) with
    ⟨same, -⟩ | ⟨first, rest, queue, later, busy⟩
  · -- Nobody waits at the condition, so only the phase changes.
    rw [same]
    exact dining.move threads (untouched_of_eq rfl rfl rfl rfl rfl) outside mine meal picked signals
  · -- The first of those who wait is the philosopher that was tested, and the only one.
    obtain ⟨waits, there⟩ := dining.waiters selves positioned scheduled
      (i := test.target who) (by rw [queue]; exact List.mem_cons_self)
    have once := scheduled.queueOnce (.condition (self (test.target who)))
    rw [queue, List.nodup_cons] at once
    subst waits
    -- The thread that signals runs, so it does not wait itself.
    have other : test.target who ≠ who := by
      intro same
      rw [same, outside] at there
      cases there
    refine ⟨owned_update dining.owned fun other is => by rw [mine other is], fun i => ?_, ?_,
      dining.apart⟩
    · -- No thread changes its place by being signalled.
      have place := congrFun (SynchList.signal_place client.kernel (philo who)
        (self (test.target who)) dp) (philo i)
      by_cases tested : i = test.target who
      · -- It is taken from the queue, and may go on.
        subst tested
        have differ : philo (test.target who) ≠ philo who := fun equal => other (threads equal)
        refine ⟨?_, fun _ => .inr ⟨?_, ?_, eats⟩, fun away => (away (place.trans there)).elim⟩
        · dsimp only
          rw [Function.update_of_ne differ]
          exact (dining.seated _).meal
        · rw [later, Function.update_self]
          exact once.1
        · rw [busy, Function.update_self]
      · have apart : self i ≠ self (test.target who) := fun equal => tested (selves equal)
        have still : (client.kernel.signal (philo who) (self (test.target who)) dp).isBusy (self i) =
            client.kernel.isBusy (self i) := by rw [busy, Function.update_of_ne apart]
        -- The other conditions are left alone: first the thread that signals, then everybody else.
        by_cases own : i = who
        · subst own
          have awake : client.kernel.place (philo i) ≠ .inWait (self i) dp := by simp [outside]
          refine (dining.seated i).turn awake (place ▸ awake) still ?_ ?_
          · simpa using meal
          · simpa using picked
        · have differ : philo i ≠ philo who := fun equal => own (threads equal)
          have member : Object.condition (self i) ≠ .condition (self (test.target who)) := by
            simpa using apart
          refine (dining.seated i).frame (by rw [place]) ?_ still
            (Function.update_of_ne differ _ _) rfl
          rw [later, Function.update_of_ne member]
    · -- `fed`: the thread has signalled, and no other one is about to by its phase.
      intro thread number tested now
      by_cases same : thread = philo who
      · simp only [same, Function.update_self] at now
        exact (signals number tested now).elim
      · simp only [Function.update_of_ne same] at now
        exact dining.fed thread number tested now

/-- What `Wait` does for a thread that has the lock while the condition is busy. -/
theorem wait_of_busy {condition lock : Nat} (held : kernel.isHeldBy lock thread = true)
    (busy : kernel.isBusy condition = true) :
    (kernel.wait thread condition lock).queue (.condition condition) =
        kernel.queue (.condition condition) ++ [thread] ∧
      (kernel.wait thread condition lock).isBusy = kernel.isBusy ∧
      (kernel.wait thread condition lock).place =
        Function.update kernel.place thread (.inWait condition lock) ∧
      ∀ other, other ≠ condition → (kernel.wait thread condition lock).queue (.condition other) =
        kernel.queue (.condition other) := by
  -- Giving the lock back leaves the conditions alone.
  have released : Untouched isCondition kernel (kernel.release lock) := untouched_release rfl
  have still : (kernel.release lock).isBusy = kernel.isBusy :=
    funext fun other => released.isBusy other rfl
  -- The flag is set, so the thread goes to sleep at the condition.
  have slept : kernel.wait thread condition lock =
      (kernel.release lock).block thread (.condition condition) (.inWait condition lock) := by
    rw [Kernel.wait, Kernel.releaseHeld, if_pos held, Kernel.waitLoop, if_pos (by rw [still, busy])]
  rw [slept]
  refine ⟨?_, ?_, ?_, fun other differ => ?_⟩
  · rw [Kernel.block_queue, Function.update_self, released.queue _ rfl]
  · rw [Kernel.block_isBusy, still]
  · rw [Kernel.block_place, (release_members kernel lock).2.2]
  · rw [Kernel.block_queue, Function.update_of_ne (by simpa using differ), released.queue _ rfl]

/-- A hungry philosopher whose neighbours eat waits. -/
theorem Dining.wait (dining : Dining dp self philo client) (threads : Function.Injective philo)
    (selves : Function.Injective self) (outside : client.kernel.place (philo who) = .outside)
    (hungry : client.data who = .hungry)
    (held : client.kernel.isHeldBy dp (philo who) = true) :
    Dining dp self philo ⟨client.kernel.wait (philo who) (self who) dp, client.data,
      Function.update client.phase (philo who) (.picked who)⟩ := by
  have awake : client.kernel.place (philo who) ≠ .inWait (self who) dp := by simp [outside]
  have busy := ((dining.seated who).awake awake).1
  obtain ⟨queue, still, place, others⟩ := wait_of_busy held busy
  refine ⟨owned_update dining.owned fun other same => by cases same; rfl, fun i => ?_, ?_,
    dining.apart⟩
  · -- The thread is at the end of its own queue, and its flag is still set.
    by_cases same : i = who
    · subst same
      refine ⟨?_, fun _ => .inl ⟨?_, ?_⟩, fun away => (away ?_).elim⟩
      · simp [Meal, hungry]
      · rw [queue]
        exact List.mem_append_right _ (List.mem_singleton.mpr rfl)
      · rw [still, busy]
      · rw [place, Function.update_self]
    · -- Other philosophers wait at other conditions.
      have differ : philo i ≠ philo who := fun equal => same (threads equal)
      refine (dining.seated i).frame ?_ ?_ ?_ (Function.update_of_ne differ _ _) rfl
      · rw [place, Function.update_of_ne differ]
      · exact others (self i) fun equal => same (selves equal)
      · rw [still]
  · -- `fed`: the thread waits instead of signalling.
    intro thread number test now
    by_cases same : thread = philo who
    · simp [same] at now
    · simp only [Function.update_of_ne same] at now
      exact dining.fed thread number test now

/-- What a thread that has been signalled does in the loop of `Wait`. -/
theorem waitLoop_of_free {condition lock : Nat}
    (placed : kernel.place thread = .inWait condition lock)
    (free : kernel.isBusy condition = false)
    (resumed : kernel.resume thread (kernel.place thread) = .ok after) :
    (∀ other, after.queue (.condition other) = kernel.queue (.condition other)) ∧
      after.isBusy = Function.update kernel.isBusy condition true ∧
      after.place thread ≠ .inWait condition lock := by
  -- The flag is clear, so the loop ends, sets it again and takes the lock back.
  rw [placed, Kernel.resume, Except.ok.injEq, Kernel.waitLoop, if_neg (by simp [free])] at resumed
  subst resumed
  refine ⟨fun other => ?_, by simp, ?_⟩
  · unfold Kernel.acquire
    split
    · rfl
    · simp
  · -- The thread has the lock or sleeps for it, but not at the condition.
    rcases place_of_acquire { kernel with
        isBusy := Function.update kernel.isBusy condition true } thread lock with there | there
    · rw [there]
      simp
    · rw [there]
      simp

/-- Nothing changes for the philosophers when only the conditions of others do. -/
theorem Dining.frame (dining : Dining dp self philo client)
    (seated : ∀ i, Seated dp self philo ⟨after, client.data, client.phase⟩ i) :
    Dining dp self philo ⟨after, client.data, client.phase⟩ :=
  ⟨dining.owned, seated, dining.fed, dining.apart⟩

/-- A thread that goes on in a routine has got the lock, or has been woken for it. -/
theorem Dining.resume (dining : Dining dp self philo client) (threads : Function.Injective philo)
    (selves : Function.Injective self)
    (scheduled : Scheduled (fun object => client.kernel.life object = .deleted) client.kernel)
    (current : client.kernel.currentThread = some thread)
    (rested : rests dp self (client.phase thread) (client.kernel.place thread))
    (resumed : client.kernel.resume thread (client.kernel.place thread) = .ok after) :
    Dining dp self philo ⟨after, client.data, client.phase⟩ := by
  refine dining.frame fun i => ?_
  -- A thread that gets the lock touches no condition.
  have acquired (placed : client.kernel.place thread = .inAcquire dp) :
      Seated dp self philo ⟨after, client.data, client.phase⟩ i := by
    have untouched : Untouched isCondition client.kernel after :=
      untouched_resume (by rw [placed]; rfl) resumed
    exact (dining.seated i).frame (waits_iff untouched _ _ _) (untouched.queue _ rfl)
      (untouched.isBusy _ rfl) rfl rfl
  cases is : client.phase thread with
  | pickup | putdown =>
    rw [is] at rested
    exact acquired rested
  | thinking | test | signal | check | eating | put =>
    rw [is] at rested
    exact rested.elim
  | picked who =>
    rw [is] at rested
    rcases rested with placed | placed
    · -- It was in `Wait`, and looks at its flag again.
      obtain rfl := dining.owned thread who (by rw [is]; rfl)
      -- A thread that has the CPU is on no queue, so it has been signalled.
      have running := (scheduled.running (philo who)).mp current
      have woken : philo who ∉ client.kernel.queue (.condition (self who)) :=
        scheduled.not_queued (by simp [running]) _
      rcases (dining.seated who).asleep placed with ⟨queued, -⟩ | ⟨-, free, eats⟩
      · exact (woken queued).elim
      · obtain ⟨queue, busy, away⟩ := waitLoop_of_free placed free resumed
        -- It has been signalled, so it eats, and the flag is set for the next time.
        by_cases same : i = who
        · subst same
          refine ⟨(dining.seated i).meal, fun there => (away there).elim, fun _ => ⟨?_, fun _ => eats⟩⟩
          rw [busy, Function.update_self]
        · -- The flags and queues of the others are their own.
          have differ : philo i ≠ philo who := fun equal => same (threads equal)
          refine (dining.seated i).frame ?_ (queue (self i)) ?_ rfl rfl
          · rw [Kernel.resume_place_of_ne resumed differ]
          · rw [busy, Function.update_of_ne fun equal => same (selves equal)]
    · exact acquired placed

/-- Every step of the philosophers keeps them seated. -/
theorem Dining.step (dining : Dining dp self philo client) (threads : Function.Injective philo)
    (selves : Function.Injective self)
    (positioned : Positioned (diningPh dp self) (rests dp self) client.kernel client.phase)
    (exclusive : Exclusive dp client.kernel fun thread => inside (client.phase thread) = true)
    (scheduled : Scheduled (fun object => client.kernel.life object = .deleted) client.kernel)
    (alternates : Alternates philo client act)
    (moves : Moves (diningPh dp self) (rests dp self) client act next) :
    Dining dp self philo next := by
  cases moves with
  -- Statements without a call: the tests and what is written to `state`.
  | @statement _ thread outcome current outside did silent =>
    have does := does_of_statement did
    have alone (within : inside (client.phase thread) = true) (other : Thread)
        (also : inside (client.phase other) = true)
        (standing : ∀ place, ¬ rests dp self (client.phase other) place) : other = thread :=
      sole positioned exclusive within outside also standing
    generalize is : client.phase thread = phase at does
    generalize held : client.data = state at does
    cases does with
    -- The thread is the only one inside, so no other one is about to signal.
    | pickup who =>
      subst held
      obtain rfl := dining.owned thread who (by rw [is]; rfl)
      refine dining.set threads outside (fun other number test now => ?_)
        (fun other same => by cases same; rfl) rfl (by simp) (by simp) (by simp)
      exact alone (by rw [is]; rfl) other (by rw [now]; rfl) (by simp [now, rests])
    | putdown who =>
      subst held
      obtain rfl := dining.owned thread who (by rw [is]; rfl)
      refine dining.set threads outside (fun other number test now => ?_)
        (fun other same => by cases same; rfl) rfl (by simp) (by simp) (by simp)
      exact alone (by rw [is]; rfl) other (by rw [now]; rfl) (by simp [now, rests])
    | eats who test may =>
      subst held
      obtain rfl := dining.owned thread who (by rw [is]; rfl)
      exact dining.eat threads outside is (alone (by rw [is]; rfl)) may
    -- The test fails, and the routine goes on behind it.
    | passes who test may =>
      subst held
      obtain rfl := dining.owned thread who (by rw [is]; rfl)
      have own := (dining.seated who).meal
      rw [is] at own
      refine dining.move threads (untouched_of_eq rfl rfl rfl rfl rfl) outside ?_ ?_ ?_ ?_
      · intro other same
        cases test <;> cases same <;> rfl
      · cases test with
        | own =>
          have hungry : client.data who = .hungry := own
          simp [Test.next, Meal, hungry]
        | left => exact own
        | right => exact own
      · cases test <;> simp [Test.next]
      · cases test <;> simp [Test.next]
    -- It is not hungry and does not think, so it eats.
    | stays who fed =>
      subst held
      obtain rfl := dining.owned thread who (by rw [is]; rfl)
      have own := (dining.seated who).meal
      rw [is] at own
      have eats : client.data who = .eating := by
        cases now : client.data who with
        | thinking => exact (own now).elim
        | hungry => exact (fed now).elim
        | eating => rfl
      exact dining.move threads (untouched_of_eq rfl rfl rfl rfl rfl) outside
        (fun other same => by cases same; rfl) (by simp [Meal, eats]) (fun _ => eats) (by simp)
    | acquire | signal | waits | picked | put => cases silent
  -- Statements that call the lock or a condition.
  | @call _ thread outcome call kernel current outside did calls performed =>
    have does := does_of_statement did
    -- A thread that goes on inside has the lock.
    have holds (within : inside (client.phase thread) = true) :
        client.kernel.isHeldBy dp thread = true := by
      have mine := exclusive.holds thread within (by rw [outside]; rfl)
      exact isHeldBy_of_owner (congrArg Prod.snd mine)
    generalize is : client.phase thread = phase at does
    generalize held : client.data = state at does
    cases does with
    | acquire entry idle =>
      subst held
      obtain rfl := Option.some.inj calls
      cases performed
      have untouched : Untouched isCondition client.kernel (client.kernel.acquire thread dp) :=
        untouched_acquire rfl (by rw [outside]; rfl)
      -- A philosopher picks up only what is its own, and puts down what it has.
      have caller := Kernel.caller_eq_some.mpr ⟨current, outside⟩
      cases entry with
      | pickup who =>
        obtain ⟨mine, thinks⟩ := alternates
        rw [caller, Option.some.injEq] at mine
        subst mine
        have own := (dining.seated who).meal
        rw [thinks] at own
        exact dining.move threads untouched outside (fun other same => by cases same; rfl) own
          (by simp [Entry.phase]) (by simp [Entry.phase])
      | putdown who =>
        obtain ⟨mine, eats⟩ := alternates
        rw [caller, Option.some.injEq] at mine
        subst mine
        have own := (dining.seated who).meal
        rw [eats] at own
        exact dining.move threads untouched outside (fun other same => by cases same; rfl) own
          (by simp [Entry.phase]) (by simp [Entry.phase])
    | signal who test =>
      subst held
      obtain rfl := Option.some.inj calls
      cases performed
      obtain rfl := dining.owned thread who (by rw [is]; rfl)
      exact dining.signal threads selves positioned scheduled outside is
        (holds (by rw [is]; rfl))
    | waits who hungry =>
      subst held
      obtain rfl := Option.some.inj calls
      cases performed
      obtain rfl := dining.owned thread who (by rw [is]; rfl)
      exact dining.wait threads selves outside hungry (holds (by rw [is]; rfl))
    -- `pickup` returns only to a philosopher that eats.
    | picked who =>
      subst held
      obtain rfl := Option.some.inj calls
      cases performed
      obtain rfl := dining.owned thread who (by rw [is]; rfl)
      have eats := ((dining.seated who).awake (by simp [outside])).2 is
      exact dining.move threads (untouched_release rfl) outside
        (by simp [Phase.philosopher]) eats (by simp) (by simp)
    -- `putdown` returns, and the philosopher thinks.
    | put who =>
      subst held
      obtain rfl := Option.some.inj calls
      cases performed
      obtain rfl := dining.owned thread who (by rw [is]; rfl)
      have own := (dining.seated who).meal
      rw [is] at own
      exact dining.move threads (untouched_release rfl) outside
        (by simp [Phase.philosopher]) own (by simp) (by simp)
    | pickup | eats | passes | stays | putdown => cases calls
  | @handle device => exact device.elim
  | @raise device => exact device.elim
  | @resume thread kernel current busy rested resumed =>
    exact dining.resume threads selves scheduled current rested resumed
  -- Other code touches neither the conditions nor the threads that wait at them.
  | @other action kernel stepped untouched still =>
    refine dining.frame fun i => (dining.seated i).frame ?_ (untouched.queue _ (owns_condition i))
      (untouched.isBusy _ (owns_condition i)) rfl rfl
    rcases untouched.places (philo i) with same | ⟨before, later⟩
    · rw [same]
    · exact iff_of_false (not_waits_of_away later) (not_waits_of_away before)

/-- The objects of a table that has been made are different. -/
theorem injective_of_made (table : (diningPh dp self).Made (made dp self) main kernel) :
    Function.Injective self := by
  -- The constructor makes each object before it has been made.
  obtain ⟨before, history, traced, unborn, ran⟩ := table.made
  have distinct := (nodup_of_creates ran).2
  simp only [made, List.map_cons, List.map_map, List.nodup_cons] at distinct
  have conditions : (fun i => (Object.condition (self i))).Injective := by
    intro i j same
    exact List.inj_on_of_nodup_map distinct.2 (List.mem_finRange i) (List.mem_finRange j) same
  exact fun i j same => conditions (congrArg Object.condition same)

/-- What holds of the kernel, the lock and the philosophers in every state of a run. -/
structure InOrder (dp : Nat) (cond : Philosopher → Nat) (philo : Philosopher → Thread)
    (client : Client Data Phase) : Prop where
  grounded : Grounded (diningPh dp cond).owns client.kernel
  positioned : Positioned (diningPh dp cond) (rests dp cond) client.kernel client.phase
  exclusive : Exclusive dp client.kernel fun thread => inside (client.phase thread) = true
  dining : Dining dp cond philo client

/-- A new table is in order. -/
theorem inOrder_of_init (init : Init dp self main client) : InOrder dp self philo client := by
  obtain ⟨grounded, away, fresh⟩ := init.made.grounded disciplined.isPublic
  have out (thread : Thread) : inside (client.phase thread) = false := by
    rw [init.phases]
    rfl
  refine ⟨grounded, ⟨fun thread _ => away thread, fun thread busy => ?_⟩, locking.start away out,
    ⟨fun thread who is => ?_, fun i => ?_, fun thread who test is => ?_, fun i eats => ?_⟩⟩
  · -- Nobody is in a routine yet.
    have idle : (diningPh dp self).idle (client.phase thread) = true := by
      rw [init.phases]
      rfl
    rw [idle] at busy
    cases busy
  · rw [init.phases] at is
    cases is
  · -- Nobody waits, the flags are set, and everybody thinks.
    have asleep : client.kernel.place (philo i) ≠ .inWait (self i) dp :=
      not_waits_of_away (away (philo i))
    have new : Fresh client.kernel (.condition (self i)) 0 :=
      fresh (.condition (self i), 0) (by simp [made])
    refine ⟨?_, fun there => (asleep there).elim, fun _ => ⟨new.2, fun is => ?_⟩⟩
    · rw [init.phases, init.states]
      rfl
    · rw [init.phases] at is
      cases is
  · rw [init.phases] at is
    cases is
  · rw [init.states] at eats
    cases eats

/-- Whoever has the sticks is between `pickup` and `putdown`. -/
def Told (philo : Philosopher → Thread) (client : Client Data Phase) (history : List Event) : Prop :=
  ∀ i, hasSticks history i = true → client.phase (philo i) = .eating

/-- The sticks stay where they are while a thread without them goes on. -/
theorem Told.move {history : List Event} (told : Told philo client history)
    (without : client.phase thread ≠ .eating) {data : Data} :
    Told philo ⟨after, data, Function.update client.phase thread phase⟩ history := by
  -- A thread without sticks is none of those who have them.
  intro i has
  have eats := told i has
  have differ : philo i ≠ thread := by
    rintro rfl
    exact without eats
  exact (Function.update_of_ne differ _ _).trans eats

/-- Every step is told as it is. -/
theorem Told.step {history : List Event} (told : Told philo client history)
    (threads : Function.Injective philo) (dining : Dining dp self philo client)
    (alternates : Alternates philo client act)
    (moves : Moves (diningPh dp self) (rests dp self) client act next) :
    Told philo next (history ++ observe client act next) := by
  cases moves with
  | @statement _ thread outcome current outside did silent =>
    have does := does_of_statement did
    generalize is : client.phase thread = phase at does
    generalize held : client.data = state at does
    cases does with
    -- These statements are not seen.
    | pickup | eats | passes | stays | putdown =>
      have quiet : ∀ after, observe client (.go ()) after = [] := by simp [observe, current, is]
      rw [quiet, List.append_nil]
      exact told.move (by simp [is])
    | acquire | signal | waits | picked | put => cases silent
  | @call _ thread outcome call kernel current outside did calls performed =>
    have does := does_of_statement did
    generalize is : client.phase thread = phase at does
    generalize held : client.data = state at does
    cases does with
    | acquire entry idle =>
      have caller := Kernel.caller_eq_some.mpr ⟨current, outside⟩
      cases entry with
      | pickup who =>
        obtain ⟨mine, thinks⟩ := alternates
        rw [caller, Option.some.injEq] at mine
        subst mine
        rw [observe, List.append_nil]
        exact told.move (by simp [thinks])
      -- `putdown` is called, so these sticks are down from now on.
      | putdown who =>
        obtain ⟨mine, -⟩ := alternates
        rw [caller, Option.some.injEq] at mine
        subst mine
        intro i has
        rw [observe, hasSticks, List.foldl_append] at has
        change Function.update (hasSticks history) who false i = true at has
        by_cases same : i = who
        · simp [same] at has
        · rw [Function.update_of_ne same] at has
          exact (Function.update_of_ne (fun equal => same (threads equal)) _ _).trans (told i has)
    -- `pickup` returns, so these sticks are up.
    | picked who =>
      obtain rfl := dining.owned thread who (by rw [is]; rfl)
      have returned : ∀ after, observe client (.go ()) after = [.returned who] := by
        simp [observe, current, is]
      rw [returned]
      intro i has
      rw [hasSticks, List.foldl_append] at has
      change Function.update (hasSticks history) who true i = true at has
      by_cases same : i = who
      · rw [same]
        exact Function.update_self _ _ _
      · rw [Function.update_of_ne same] at has
        exact (Function.update_of_ne (fun equal => same (threads equal)) _ _).trans (told i has)
    | signal | waits | put =>
      have quiet : ∀ after, observe client (.go ()) after = [] := by simp [observe, current, is]
      rw [quiet, List.append_nil]
      exact told.move (by simp [is])
    | pickup | eats | passes | stays | putdown => cases calls
  | @handle device => exact device.elim
  | @raise device => exact device.elim
  -- Waking up and other code are not seen, either.
  | resume current busy rested resumed =>
    rw [observe, List.append_nil]
    exact told
  | other stepped untouched still =>
    rw [observe, List.append_nil]
    exact told

/-- The philosophers are in order after any run in which they pick up and put down in turn. -/
theorem inOrder_of_traced {history : List Event} (threads : Function.Injective philo)
    (traced : Runs.Traced (diningPh dp self).step (Init dp self main) (Alternates philo) observe
      client history) :
    Function.Injective self ∧ InOrder dp self philo client ∧ Told philo client history := by
  refine traced.invariant (fun client history =>
    Function.Injective self ∧ InOrder dp self philo client ∧ Told philo client history) ?_ ?_
  · -- Nobody has sticks at the start.
    intro client init
    exact ⟨injective_of_made init.made, inOrder_of_init init, fun i has => nomatch has⟩
  · intro client act next history before alternates stepped
    obtain ⟨selves, ⟨grounded, positioned, exclusive, dining⟩, told⟩ := before
    -- A step of the kernel is a statement, a call, a thread that wakes up, or other code.
    have moves := positioned.moves disciplined stepped
    refine ⟨selves, ⟨grounded.step disciplined.isPublic stepped, positioned.step disciplined moves,
      exclusive.step locking moves, ?_⟩, told.step threads dining alternates moves⟩
    exact dining.step threads selves positioned exclusive grounded.scheduled alternates moves

/--
In every run of the five philosophers, neighbours never eat at the same time.

Whoever has returned from `pickup` eats until it calls `putdown`, although `pickup` waits only once.
-/
theorem dines {history : List Event} (threads : Function.Injective philo)
    (traced : Runs.Traced (diningPh dp self).step (Init dp self main) (Alternates philo) observe
      client history) :
    (∀ i, ¬ (client.data i = .eating ∧ client.data (i + 1) = .eating)) ∧
      ∀ i, hasSticks history i = true → client.data i = .eating := by
  obtain ⟨-, ⟨-, -, -, dining⟩, told⟩ := inOrder_of_traced threads traced
  -- Whoever has its sticks is behind `pickup`, where its state is eating.
  refine ⟨fun i both => dining.apart i both.1 both.2, fun i has => ?_⟩
  have meal := (dining.seated i).meal
  rwa [told i has] at meal

instance (philo : Philosopher → Thread) (client : Client Data Phase) (act : Act Entry Unit Empty) :
    Decidable (Alternates philo client act) :=
  match act with
  | .enter (.pickup _) | .enter (.putdown _) => inferInstanceAs (Decidable (_ ∧ _))
  | .go _ | .device _ | .other _ => .isTrue trivial

/-- A table in the kernel of the first thread. -/
def firstTable : Client Data Phase where
  kernel := (made 0 fun i => i).foldl (fun kernel pair => kernel.construct pair.1 pair.2)
    firstKernel
  data := fun _ => .thinking
  phase := fun _ => .thinking

/-- Its constructor has run. -/
theorem init_firstTable : Init 0 (fun i => i) 0 firstTable where
  made := by
    refine ⟨fun object owned => ?_, firstKernel, [], .start boot_firstKernel, fun _ _ => rfl, rfl⟩
    rcases owns_iff.mp owned with rfl | ⟨i, rfl⟩
    · exact List.mem_cons_self
    · refine List.mem_cons_of_mem _ ?_
      rw [List.map_map]
      exact List.mem_map.mpr ⟨i, List.mem_finRange i, rfl⟩
  phases := fun _ => rfl
  states := fun _ => rfl

/-- One philosopher eats, its neighbour waits, and is signalled when the first one has eaten. -/
def eatInTurn : List (Act Entry Unit Empty) :=
  [.other (.fork 1), .other (.fork 2), .other .yield,
    .enter (.pickup 0), .go (), .go (), .go (), .go (), .go (), .other .yield,
    .enter (.pickup 1), .go (), .go (), .go (), .other .yield,
    .enter (.putdown 0), .go (), .go (), .go (), .go (), .go (), .other .yield, .other .yield,
    .other .resume, .go ()]

/-- The neighbour has the sticks now, so it eats, and the first one does not. -/
theorem dines_eatInTurn : ∃ client,
    Runs.run (diningPh 0 fun i => i).step firstTable eatInTurn = .ok client ∧
      client.data 1 = .eating ∧ ¬ (client.data 0 = .eating ∧ client.data 1 = .eating) := by
  obtain ⟨client, ran, -⟩ := Runs.exists_of_runsTo
    (show Runs.runsTo (diningPh 0 fun i => i).step firstTable eatInTurn (fun _ => true) = true by
      decide +kernel)
  have start : Runs.Traced (diningPh 0 fun i => i).step (Init 0 (fun i => i) 0)
      (Alternates fun i => i + 1) observe firstTable [] := .start init_firstTable
  have traced := start.extend (by decide +kernel) ran
  -- The threads of the philosophers are numbered behind the first one.
  have threads : Function.Injective fun i : Philosopher => (i : Nat) + 1 := by
    intro i j same
    exact Fin.ext (Nat.succ.inj same)
  obtain ⟨apart, eats⟩ := dines threads traced
  -- The second philosopher returned last, when the first one had put its sticks down.
  have recorded : Runs.record (diningPh 0 fun i => i).step observe firstTable eatInTurn =
      [.returned 0, .called 0, .returned 1] := by decide +kernel
  rw [recorded] at eats
  exact ⟨client, ran, eats 1 rfl, apart 0⟩

end Nachos.Threads.DiningPh
