import Nachos.Threads.SynchList

/-! `SynchList` delivers the items in order, and wakes those who wait for them. -/

namespace Nachos.Threads.SynchList

variable {Item : Type} {lock listEmpty : Nat} {kernel after : Kernel}
  {phase : Thread → Phase Item} {thread : Thread} {state next : SynchList Item}
  {action : Action Item}

/-- What was appended has been returned, is about to be, or is on the list, in this order. -/
structure Fifo (state : SynchList Item) (history : List (Event Item)) : Prop where
  taking : ∀ thread, state.phase thread = .take → state.list ≠ []
  order : (∃ thread item, state.phase thread = .give item ∧
      appended history = returned history ++ item :: state.list) ∨
    (∀ thread item, state.phase thread ≠ .give item) ∧
      appended history = returned history ++ state.list

/-- Steps that leave the list alone, and neither begin nor end to give an item. -/
theorem Fifo.quiet {history : List (Event Item)} {kernel : Kernel} {before later : Phase Item}
    (fifo : Fifo state history) (is : state.phase thread = before)
    (old : ∀ item, before ≠ .give item) (new : ∀ item, later ≠ .give item)
    (takes : later = .take → state.list ≠ []) :
    Fifo { state with kernel := kernel, phase := Function.update state.phase thread later }
      history := by
  refine ⟨fun other also => ?_, ?_⟩
  · by_cases same : other = thread
    · subst same
      simp only [Function.update_self] at also
      exact takes also
    · simp only [Function.update_of_ne same] at also
      exact fifo.taking other also
  · rcases fifo.order with ⟨giver, item, gives, order⟩ | ⟨nobody, order⟩
    · have differ : giver ≠ thread := by
        rintro rfl
        exact old item (is.symm.trans gives)
      exact .inl ⟨giver, item, by simpa [Function.update_of_ne differ] using gives, order⟩
    · refine .inr ⟨fun other item => ?_, order⟩
      by_cases same : other = thread
      · simpa [same] using new item
      · simpa [Function.update_of_ne same] using nobody other item

/-- The thread that goes on in a routine is the only one in any of the phases inside. -/
theorem Excluded.only
    (excluded : Excluded lock listEmpty (fun _ => False) state.kernel state.phase)
    (busy : state.phase thread ≠ .idle) (outside : state.kernel.place thread = .outside) :
    ∀ other, other ≠ thread → state.phase other ≠ .take ∧
      (∀ item, state.phase other ≠ .give item) ∧ state.phase other ≠ .signal := by
  intro other differ
  have fits := excluded.fits other not_false
  have away : ∀ phase, state.phase other = phase → phase ≠ .idle →
      state.kernel.place other ≠ .outside := fun phase is also too =>
    differ (excluded.unique busy outside (is ▸ also) too)
  refine ⟨fun is => ?_, fun item is => ?_, fun is => ?_⟩ <;>
    exact away _ is (by simp) (by simpa [is, Phase.fits] using fits)

/-- The lock and the condition are there, and no wake-up is lost at the lock. -/
structure Founded (lock listEmpty : Nat) (kernel : Kernel) : Prop where
  scheduled : Scheduled (fun object => kernel.life object = .deleted) kernel
  lockLive : kernel.life (.lock lock) = .live
  conditionLive : kernel.life (.condition listEmpty) = .live
  sound : (kernel.gate (.lock lock)).Sound

/-- They stay until they are deleted. -/
theorem Founded.below {action : Threads.Action} (founded : Founded lock listEmpty kernel)
    (stepped : Threads.step kernel action = .ok after) (lockKept : action ≠ .delete (.lock lock))
    (conditionKept : action ≠ .delete (.condition listEmpty)) :
    Founded lock listEmpty after := by
  have ages := ages_of_step stepped
  have lockLive := life_of_spares stepped rfl lockKept founded.lockLive
  refine ⟨founded.scheduled.step stepped ages.deleted ages.abandoned, lockLive,
    life_of_spares stepped rfl conditionKept founded.conditionLive, ?_⟩
  rcases sees_step founded.scheduled stepped rfl lockLive with ⟨-, sees⟩ | ⟨unborn, -⟩
  · have flagged : (kernel.gate (.lock lock)).store = min 1 := rfl
    exact sees.follows.sound founded.sound flagged (by omega)
  · simp [founded.lockLive] at unborn

/-- The threads that are on their way to an item, or to wake somebody up for one. -/
def InFlight (listEmpty : Nat) (state : SynchList Item) (thread : Thread) : Prop :=
  state.phase thread = .signal ∨ state.phase thread = .take ∨
    state.phase thread = .check ∧ thread ∉ state.kernel.queue (.condition listEmpty)

/-- While threads sleep at the condition, each item has a thread on its way to it. -/
structure Waiting (listEmpty : Nat) (state : SynchList Item) : Prop where
  permitted : ∃ signals, Permitted state.kernel signals listEmpty
  covered : state.kernel.queue (.condition listEmpty) ≠ [] →
    ∃ threads : Finset Thread, (∀ thread ∈ threads, state.InFlight listEmpty thread) ∧
      state.list.length ≤ threads.card

/-- A step of the kernel that may be taken keeps the permissions in order. -/
theorem Waiting.below {action : Threads.Action} (waiting : Waiting listEmpty state)
    (founded : Founded lock listEmpty state.kernel)
    (stepped : Threads.step state.kernel action = .ok after)
    (permits : state.kernel.permits listEmpty action)
    (kept : action ≠ .delete (.condition listEmpty)) :
    ∃ signals, Permitted after signals listEmpty := by
  obtain ⟨signals, permitted⟩ := waiting.permitted
  exact ⟨_, (permitted.step founded.scheduled permits stepped founded.conditionLive
    (life_of_spares stepped rfl kept founded.conditionLive)).2⟩

/-- If nobody is off to sleep and no item is new, those on their way are enough. -/
theorem Waiting.mono (waiting : Waiting listEmpty state)
    (permitted : ∃ signals, Permitted next.kernel signals listEmpty)
    (queue : next.kernel.queue (.condition listEmpty) ≠ [] →
      state.kernel.queue (.condition listEmpty) ≠ [])
    (list : next.list = state.list)
    (flights : ∀ thread, state.InFlight listEmpty thread → next.InFlight listEmpty thread) :
    Waiting listEmpty next := by
  refine ⟨permitted, fun sleepers => ?_⟩
  obtain ⟨threads, going, enough⟩ := waiting.covered (queue sleepers)
  exact ⟨threads, fun thread member => flights thread (going thread member), list ▸ enough⟩

/-- A thread that is on its way when another one changes its phase is on its way after that. -/
theorem InFlight.update {kernel : Kernel} {list : List Item} {later : Phase Item} {other : Thread}
    (going : state.InFlight listEmpty other) (differ : other ≠ thread)
    (queue : other ∈ kernel.queue (.condition listEmpty) →
      other ∈ state.kernel.queue (.condition listEmpty)) :
    InFlight listEmpty ⟨kernel, list, Function.update state.phase thread later⟩ other := by
  unfold InFlight
  simp only [Function.update_of_ne differ]
  rcases going with signals | takes | ⟨checks, off⟩
  · exact .inl signals
  · exact .inr (.inl takes)
  · exact .inr (.inr ⟨checks, fun member => off (queue member)⟩)

/-- Other threads leave the queue of the condition alone. -/
theorem queue_of_other {action : Threads.Action} (waiting : Waiting listEmpty state)
    (founded : Founded lock listEmpty state.kernel)
    (spares : action.spares lock listEmpty = true)
    (stepped : Threads.step state.kernel action = .ok after) :
    after.queue (.condition listEmpty) = state.kernel.queue (.condition listEmpty) := by
  by_cases resumes : action = .resume
  · subst resumes
    cases step_stepped stepped with
    | @resume thread _ current live resumed =>
      by_cases here : (state.kernel.place thread).object = some (.condition listEmpty)
      · -- A thread that goes on in the loop of `Wait` leaves it.
        obtain ⟨signals, permitted⟩ := waiting.permitted
        have running := (founded.scheduled.running thread).mp current
        have off : thread ∉ state.kernel.queue (.condition listEmpty) :=
          founded.scheduled.not_queued (by simp [running]) _
        cases placed : state.kernel.place thread with
        | inWait other held =>
          simp only [placed, Place.object, Option.some.injEq, Object.condition.injEq] at here
          subst here
          have free := (permitted.resume placed off).1
          simp only [placed, Kernel.resume, Except.ok.injEq] at resumed
          rw [← resumed, Kernel.waitLoop, if_neg (by simp [free])]
          cases enters_acquire { state.kernel with
            isBusy := Function.update state.kernel.isBusy other true } thread held with
          | slept place nothing sleeps result => rw [result]; simp
          | passed something queue place taken => rw [queue]
        | outside | finished | inP | inAcquire | inLock | inBarrier =>
          simp [placed, Place.object] at here
      · exact (undisturbed_resume here resumed).queue
  · exact (spared_step stepped spares fun same => (resumes same).elim).undisturbed.queue

/-- Actions that spare the condition do not use its permissions. -/
theorem permits_of_spares {action : Threads.Action} (spares : action.spares lock listEmpty = true) :
    kernel.permits listEmpty action := by
  cases action with
  | call call =>
    cases call with
    | wait condition | signal condition =>
      rintro rfl
      simp [Action.spares, Call.objects] at spares
    | p | v | acquire | release | lockMutex | unlockMutex | broadcast | barrierWait => trivial
  | resume | yield | fork | join | finish | create | delete | interrupt | dispatch => trivial

/-- The constructors of the lock and the condition have run, one after the other. -/
theorem eq_construct_of_run
    (ran : Runs.run Threads.step kernel [.create (.lock lock) 0, .create (.condition listEmpty) 0] =
      .ok after) :
    after = (kernel.construct (.lock lock) 0).construct (.condition listEmpty) 0 := by
  simp only [Runs.run] at ran
  split at ran
  · rename_i middle first
    split at ran
    · rename_i last second
      simp only [Except.ok.injEq] at ran
      subst ran
      cases step_stepped first with
      | create =>
        generalize made : (kernel.construct (.lock lock) 0).construct (.condition listEmpty) 0 = goal
        cases step_stepped second with
        | create => exact made
    · cases ran
  · cases ran

/-- A new list has its lock and its condition, and nobody has been at them. -/
theorem founded_of_init {main : Thread} (init : Init lock listEmpty main state) :
    Founded lock listEmpty state.kernel ∧
      ∀ thread, (state.kernel.place thread).uses lock listEmpty = false := by
  obtain ⟨kernel, history, traced, noLock, noCondition, ran⟩ := init.constructed
  have scheduled := (simulated_of_traced traced).scheduled
  have made := eq_construct_of_run ran
  have unborn : (kernel.construct (.lock lock) 0).life (.condition listEmpty) = .unborn := by
    simpa using noCondition
  refine ⟨⟨?_, by simp [made], by simp [made], ?_⟩, fun thread => ?_⟩
  · rw [made]
    refine ((scheduled.construct noLock 0).construct unborn 0).mono fun object deleted => ?_
    have differ : object ≠ .lock lock ∧ object ≠ .condition listEmpty := by
      refine ⟨?_, ?_⟩ <;> rintro rfl <;> simp_all
    simpa [Function.update_of_ne differ.1, Function.update_of_ne differ.2] using deleted
  · rw [made, gate_construct_of_ne (by simp), gate_construct scheduled noLock rfl]
    exact Gate.sound_fresh (by simp [Object.initialUnits]) fun _ _ last => min_eq_right last
  · simpa [made] using strangers_of_unborn traced noLock noCondition thread

/-- All that is known about a list in use. -/
structure Kept (lock listEmpty : Nat) (state : SynchList Item) (history : List (Event Item)) :
    Prop where
  founded : Founded lock listEmpty state.kernel
  excluded : Excluded lock listEmpty (fun _ => False) state.kernel state.phase
  fifo : Fifo state history

/-- A new list is in order. -/
theorem kept_of_init {main : Thread} (init : Init lock listEmpty main state) :
    Kept lock listEmpty state [] := by
  obtain ⟨founded, unused⟩ := founded_of_init init
  refine ⟨founded, ⟨fun thread _ => ?_, fun thread _ busy => ?_⟩, ⟨fun thread takes => ?_, .inr ?_⟩⟩
  · simpa [init.idle, Phase.fits] using unused thread
  · exact (busy (init.idle thread)).elim
  · simp [init.idle] at takes
  · simp [init.idle, init.empty, appended, returned]

/-- Nobody waits at a new list. -/
theorem waiting_of_init {main : Thread} (init : Init lock listEmpty main state) :
    Waiting listEmpty state := by
  obtain ⟨founded, unused⟩ := founded_of_init init
  refine ⟨⟨Signals.start, permitted_of_queued fun thread here => ?_⟩, fun _ => ⟨∅, ?_, ?_⟩⟩
  · have away := unused thread
    cases placed : state.kernel.place thread <;> simp_all [Place.uses, Place.object]
  · simp
  · simp [init.empty]

/-- If nobody is on the way and the lock is free, those who wait have nothing to wait for. -/
theorem Waiting.unstranded (waiting : Waiting listEmpty state)
    (founded : Founded lock listEmpty state.kernel)
    (excluded : Excluded lock listEmpty (fun _ => False) state.kernel state.phase)
    (quiet : state.Quiet lock listEmpty) : state.Unstranded lock listEmpty := by
  intro thread placed blocked
  obtain ⟨free, settled⟩ := quiet
  -- Whoever is at the lock or the condition is on its queue.
  have queued : ∀ other object, (state.kernel.place other).object = some object →
      object = .lock lock ∨ object = .condition listEmpty →
        other ∈ state.kernel.queue object := by
    intro other object here ours
    have asleep := settled other (by rcases ours with rfl | rfl <;> simp [here])
    obtain ⟨found, there, listed | gone⟩ := founded.scheduled.waiting other asleep
      (fun finished => by simp [finished] at here)
    · rw [here, Option.some.injEq] at there
      exact there ▸ listed
    · rw [here, Option.some.injEq] at there
      subst there
      rcases ours with rfl | rfl
      · simp [founded.lockLive] at gone
      · simp [founded.conditionLive] at gone
  -- The lock is free, so nobody sleeps at it.
  have empty : state.kernel.queue (.lock lock) = [] := by
    by_contra waiters
    obtain ⟨threads, woken, enough⟩ := founded.sound.covered waiters
    have one : (1 : Int) ≤ threads.card := by
      simpa [Kernel.gate, Kernel.units, free] using enough
    obtain ⟨other, member⟩ := Finset.card_pos.mp (by omega : 0 < threads.card)
    have going := woken (Finset.mem_coe.mpr member)
    exact going.2 (queued other _ going.1 (.inl rfl))
  have sleepers : state.kernel.queue (.condition listEmpty) ≠ [] :=
    List.ne_nil_of_mem (queued thread _ (by rw [placed]; rfl) (.inr rfl))
  obtain ⟨threads, going, enough⟩ := waiting.covered sleepers
  -- Nobody is on the way, for whoever goes on in a routine holds the lock.
  have nobody : threads = ∅ := by
    refine Finset.eq_empty_of_forall_notMem fun other member => ?_
    have busy : state.kernel.place other = .outside → state.phase other = .idle := by
      intro outside
      by_contra also
      have taken := excluded.holds other not_false also outside
      simp [Kernel.lockState, free] at taken
    have fits := excluded.fits other not_false
    rcases going other member with signals | takes | ⟨checks, off⟩
    · have outside : state.kernel.place other = .outside := by simpa [signals, Phase.fits] using fits
      simp [busy outside] at signals
    · have outside : state.kernel.place other = .outside := by simpa [takes, Phase.fits] using fits
      simp [busy outside] at takes
    · rw [checks] at fits
      rcases fits with outside | inside | waits
      · simp [busy outside] at checks
      · have listed := queued other (.lock lock) (by rw [inside]; rfl) (.inl rfl)
        simp [empty] at listed
      · exact off (queued other _ (by rw [waits]; rfl) (.inr rfl))
  have none : state.list.length = 0 := by simpa [nobody] using enough
  exact List.length_eq_zero_iff.mp none

/-- The thread that is about to return an item is the only one. -/
theorem Excluded.giver (excluded : Excluded lock listEmpty (fun _ => False) kernel phase)
    {item other : Item} {giver : Thread} (gives : phase thread = .give item)
    (also : phase giver = .give other) : other = item := by
  have outside : kernel.place thread = .outside := by
    simpa [gives, Phase.fits] using excluded.fits thread not_false
  have too : kernel.place giver = .outside := by
    simpa [also, Phase.fits] using excluded.fits giver not_false
  have same := excluded.unique (by simp [gives]) outside (by simp [also]) too
  rw [same, gives, Phase.give.injEq] at also
  exact also.symm

/-- The state is quiet when every thread that could run is outside of the primitives. -/
theorem Founded.quiet (founded : Founded lock listEmpty state.kernel)
    (free : state.kernel.available lock = true)
    (running : ∀ thread ∈ state.kernel.currentThread, state.kernel.place thread = .outside)
    (ready : ∀ thread ∈ state.kernel.readyList, state.kernel.place thread = .outside) :
    state.Quiet lock listEmpty := by
  refine ⟨free, fun thread here => ?_⟩
  have inside : state.kernel.place thread ≠ .outside := by
    intro outside
    simp [outside] at here
  cases status : state.kernel.status thread with
  | blocked => rfl
  | running =>
    exact (inside (running thread ((founded.scheduled.running thread).mpr status))).elim
  | ready => exact (inside (ready thread ((founded.scheduled.ready thread).mpr status))).elim
  | justCreated => exact (inside (founded.scheduled.fresh thread status)).elim

variable [Inhabited Item]

/-- Every step keeps the order of the items. -/
theorem Fifo.step {history : List (Event Item)} (fifo : Fifo state history)
    (excluded : Excluded lock listEmpty (fun _ => False) state.kernel state.phase)
    (moves : Moves lock listEmpty state action next) :
    Fifo next (history ++ observe state action next) := by
  cases moves with
  | @append thread item kernel current outside idle stepped =>
    simpa [observe] using fifo.quiet idle (by simp) (by simp) (by simp)
  | @remove thread kernel current outside idle stepped =>
    simpa [observe] using fifo.quiet idle (by simp) (by simp) (by simp)
  | @signal thread kernel current outside signals stepped =>
    have caller := Kernel.caller_eq_some.mpr ⟨current, outside⟩
    simpa [observe, caller, signals] using fifo.quiet signals (by simp) (by simp) (by simp)
  | @wait thread kernel current outside checks empty stepped =>
    have caller := Kernel.caller_eq_some.mpr ⟨current, outside⟩
    simp only [observe, caller, checks, List.append_nil]
    exact ⟨fifo.taking, fifo.order⟩
  | @look thread current outside checks nonempty =>
    have caller := Kernel.caller_eq_some.mpr ⟨current, outside⟩
    simpa [observe, caller, checks] using
      fifo.quiet checks (by simp) (by simp) (fun _ => nonempty)
  | other spares idle stepped =>
    simp only [observe, List.append_nil]
    exact ⟨fifo.taking, fifo.order⟩
  | @put thread item current outside appends =>
    have caller := Kernel.caller_eq_some.mpr ⟨current, outside⟩
    have only := excluded.only (by simp [appends]) outside
    simp only [observe, caller, appends]
    refine ⟨fun other _ => by simp, .inr ⟨fun other given => ?_, ?_⟩⟩
    · by_cases same : other = thread
      · simp [same]
      · simpa [Function.update_of_ne same] using (only other same).2.1 given
    · -- Nobody holds an item while this thread has the lock.
      rcases fifo.order with ⟨giver, given, gives, -⟩ | ⟨-, order⟩
      · by_cases same : giver = thread
        · simp [same, appends] at gives
        · exact ((only giver same).2.1 given gives).elim
      · simp [appended, returned] at order ⊢
        rw [order]
        simp
  | @release thread kernel current outside releases stepped =>
    have caller := Kernel.caller_eq_some.mpr ⟨current, outside⟩
    rcases releases with releases | ⟨item, gives⟩
    · simpa [observe, caller, releases] using fifo.quiet releases (by simp) (by simp) (by simp)
    · have only := excluded.only (by simp [gives]) outside
      simp only [observe, caller, gives]
      refine ⟨fun other takes => ?_, .inr ⟨fun other given => ?_, ?_⟩⟩
      · by_cases same : other = thread
        · simp [same] at takes
        · simp only [Function.update_of_ne same] at takes
          exact fifo.taking other takes
      · by_cases same : other = thread
        · simp [same]
        · simpa [Function.update_of_ne same] using (only other same).2.1 given
      · -- The item that is returned is the one that was taken last.
        rcases fifo.order with ⟨giver, given, also, order⟩ | ⟨nobody, -⟩
        · have same : giver = thread := by
            by_contra differ
            exact (only giver differ).2.1 given also
          rw [same, gives, Phase.give.injEq] at also
          simp [appended, returned] at order ⊢
          rw [order, also]
        · exact (nobody thread item gives).elim
  | @take thread current outside takes =>
    have caller := Kernel.caller_eq_some.mpr ⟨current, outside⟩
    have only := excluded.only (by simp [takes]) outside
    simp only [observe, caller, takes, List.append_nil]
    cases shape : state.list with
    | nil => exact (fifo.taking thread takes shape).elim
    | cons first rest =>
      refine ⟨fun other also => ?_, .inl ⟨thread, first, by simp, ?_⟩⟩
      · by_cases same : other = thread
        · simp [same] at also
        · simp only [Function.update_of_ne same] at also
          exact ((only other same).1 also).elim
      · rcases fifo.order with ⟨giver, given, gives, -⟩ | ⟨-, order⟩
        · by_cases same : giver = thread
          · simp [same, takes] at gives
          · exact ((only giver same).2.1 given gives).elim
        · simpa [shape] using order

/-- Every step keeps the lock and the condition. -/
theorem Founded.step (founded : Founded lock listEmpty state.kernel)
    (moves : Moves lock listEmpty state action next) : Founded lock listEmpty next.kernel := by
  cases moves with
  | append current outside idle stepped => exact founded.below stepped (by simp) (by simp)
  | remove current outside idle stepped => exact founded.below stepped (by simp) (by simp)
  | signal current outside signals stepped => exact founded.below stepped (by simp) (by simp)
  | release current outside releases stepped => exact founded.below stepped (by simp) (by simp)
  | wait current outside checks empty stepped => exact founded.below stepped (by simp) (by simp)
  | put | look | take => exact founded
  | other spares idle stepped =>
    refine founded.below stepped ?_ ?_ <;>
    · rintro rfl
      simp [Action.spares] at spares

/-- Every permitted step keeps enough threads on their way. -/
theorem Waiting.step (waiting : Waiting listEmpty state)
    (founded : Founded lock listEmpty state.kernel)
    (excluded : Excluded lock listEmpty (fun _ => False) state.kernel state.phase)
    (permits : state.permits listEmpty action)
    (moves : Moves lock listEmpty state action next) : Waiting listEmpty next := by
  cases moves with
  | @append thread item kernel current outside idle stepped =>
    have queue : kernel.queue (.condition listEmpty) = state.kernel.queue (.condition listEmpty) :=
      (undisturbed_perform (by simp) (by simp) outside (performed_of_call current stepped)).queue
    refine waiting.mono (waiting.below founded stepped trivial (by simp)) (by simp [queue]) rfl ?_
    intro other going
    refine going.update ?_ (by simp [queue])
    rintro rfl
    simp [InFlight, idle] at going
  | @remove thread kernel current outside idle stepped =>
    have queue : kernel.queue (.condition listEmpty) = state.kernel.queue (.condition listEmpty) :=
      (undisturbed_perform (by simp) (by simp) outside (performed_of_call current stepped)).queue
    refine waiting.mono (waiting.below founded stepped trivial (by simp)) (by simp [queue]) rfl ?_
    intro other going
    refine going.update ?_ (by simp [queue])
    rintro rfl
    simp [InFlight, idle] at going
  | @put thread item current outside appends =>
    refine ⟨waiting.permitted, fun sleepers => ?_⟩
    obtain ⟨threads, going, enough⟩ := waiting.covered sleepers
    have new : thread ∉ threads := by
      intro member
      simpa [InFlight, appends] using going thread member
    -- The thread that brings the item is on its way to wake somebody up.
    refine ⟨insert thread threads, fun other member => ?_, ?_⟩
    · rcases Finset.mem_insert.mp member with rfl | old
      · exact .inl (by simp)
      · exact (going other old).update (by rintro rfl; exact new old) id
    · rw [Finset.card_insert_of_notMem new, List.length_append, List.length_singleton]
      omega
  | @signal thread kernel current outside signals stepped =>
    have caller := Kernel.caller_eq_some.mpr ⟨current, outside⟩
    have permitted := waiting.below founded stepped
      (fun _ sleepers _ => (permits thread caller).1 signals sleepers) (by simp)
    refine ⟨permitted, fun sleepers => ?_⟩
    cases performed_of_call current stepped
    have mine := excluded.holds thread not_false (by simp [signals]) outside
    have held : state.kernel.isHeldBy lock thread = true :=
      isHeldBy_of_owner (congrArg Prod.snd mine)
    simp only [Kernel.signal, held, if_true] at sleepers ⊢
    cases shape : state.kernel.queue (.condition listEmpty) with
    | nil => simp [shape] at sleepers
    | cons first rest =>
      obtain ⟨threads, going, enough⟩ := waiting.covered (by simp [shape])
      obtain ⟨-, here, -⟩ := founded.scheduled.queued first (.condition listEmpty) (by simp [shape])
      have differ : first ≠ thread := by
        rintro rfl
        simp [outside] at here
      have checks := excluded.checks here
      have new : first ∉ threads.erase thread := by
        intro member
        simpa [InFlight, checks, shape] using going first (Finset.mem_of_mem_erase member)
      -- The thread that is woken takes over the item from the one that brought it.
      refine ⟨insert first (threads.erase thread), fun other member => ?_, ?_⟩
      · rcases Finset.mem_insert.mp member with rfl | old
        · have once := founded.scheduled.queueOnce (.condition listEmpty)
          rw [shape, List.nodup_cons] at once
          exact .inr (.inr ⟨by simpa [Function.update_of_ne differ] using checks,
            by simpa [shape] using once.1⟩)
        · obtain ⟨apart, old⟩ := Finset.mem_erase.mp old
          refine (going other old).update apart fun listed => ?_
          simp only [Kernel.wake_queue, Function.update_self, shape, List.tail_cons] at listed
          simp [shape, listed]
      · have few := Finset.pred_card_le_card_erase (s := threads) (a := thread)
        rw [Finset.card_insert_of_notMem new]
        show state.list.length ≤ _
        omega
  | @release thread kernel current outside releases stepped =>
    have queue : kernel.queue (.condition listEmpty) = state.kernel.queue (.condition listEmpty) :=
      (undisturbed_perform (by simp) (by simp) outside (performed_of_call current stepped)).queue
    refine waiting.mono (waiting.below founded stepped trivial (by simp)) (by simp [queue]) rfl ?_
    intro other going
    refine going.update ?_ (by simp [queue])
    rintro rfl
    rcases releases with releases | ⟨item, gives⟩
    · simp [InFlight, releases] at going
    · simp [InFlight, gives] at going
  | @wait thread kernel current outside checks empty stepped =>
    have caller := Kernel.caller_eq_some.mpr ⟨current, outside⟩
    have permitted := waiting.below founded stepped
      (fun _ => (permits thread caller).2 checks empty) (by simp)
    exact ⟨permitted, fun _ => ⟨∅, by simp, by simp [empty]⟩⟩
  | @look thread current outside checks nonempty =>
    refine waiting.mono waiting.permitted id rfl fun other going => ?_
    by_cases same : other = thread
    · exact .inr (.inl (by simp [same]))
    · exact going.update same id
  | @take thread current outside takes =>
    refine ⟨waiting.permitted, fun sleepers => ?_⟩
    obtain ⟨threads, going, enough⟩ := waiting.covered sleepers
    -- One item less needs one thread less.
    refine ⟨threads.erase thread, fun other member => ?_, ?_⟩
    · obtain ⟨differ, old⟩ := Finset.mem_erase.mp member
      exact (going other old).update differ id
    · have few := Finset.pred_card_le_card_erase (s := threads) (a := thread)
      simp only [List.length_tail]
      omega
  | @other action kernel spares idle stepped =>
    have queue := queue_of_other waiting founded spares stepped
    refine waiting.mono (waiting.below founded stepped (permits_of_spares spares) ?_)
      (by simp [queue]) rfl ?_
    · rintro rfl
      simp [Action.spares] at spares
    · intro thread going
      simpa [InFlight, queue] using going

/-- A list in use stays in order. -/
theorem Kept.step {history : List (Event Item)} (kept : Kept lock listEmpty state history)
    (moves : Moves lock listEmpty state action next) :
    Kept lock listEmpty next (history ++ observe state action next) :=
  ⟨kept.founded.step moves, kept.excluded.step moves, kept.fifo.step kept.excluded moves⟩

/-- A list stays in order in every run. -/
theorem kept_of_traced {main : Thread} {guard : SynchList Item → Action Item → Prop}
    {history : List (Event Item)}
    (traced : Runs.Traced (step lock listEmpty) (Init lock listEmpty main) guard observe state
      history) : Kept lock listEmpty state history := by
  refine traced.invariant (Kept lock listEmpty) (fun _ init => kept_of_init init) ?_
  intro state action next history kept _ stepped
  exact kept.step (moves_of_step stepped)

/-- Enough threads stay on their way in every run that is permitted. -/
theorem waiting_of_traced {main : Thread} {guard : SynchList Item → Action Item → Prop}
    {history : List (Event Item)}
    (permits : ∀ state action, guard state action → state.permits listEmpty action)
    (traced : Runs.Traced (step lock listEmpty) (Init lock listEmpty main) guard observe state
      history) : Waiting listEmpty state := by
  refine (traced.invariant (fun state history =>
    Kept lock listEmpty state history ∧ Waiting listEmpty state) ?_ ?_).2
  · exact fun state init => ⟨kept_of_init init, waiting_of_init init⟩
  · intro state action next history both allowed stepped
    obtain ⟨kept, waiting⟩ := both
    have moves := moves_of_step stepped
    exact ⟨kept.step moves,
      waiting.step kept.founded kept.excluded (permits state action allowed) moves⟩

/--
In every run of the users of a list, what was appended has been returned, is in the hands of the
one thread that is about to return it, or is on the list, in this order.

In every run in which `Wait` begins and `Signal` dequeues only while the condition is busy, nobody
is left asleep beside an item.
-/
theorem delivers {main : Thread} {guard : SynchList Item → Action Item → Prop}
    {history : List (Event Item)}
    (traced : Runs.Traced (step lock listEmpty) (Init lock listEmpty main) guard observe state
      history) :
    (∃ held, appended history = returned history ++ held ++ state.list ∧ held.length ≤ 1 ∧
      ∀ item, item ∈ held ↔ ∃ thread, state.phase thread = .give item) ∧
    ((∀ state action, guard state action → state.permits listEmpty action) →
      state.Quiet lock listEmpty → state.Unstranded lock listEmpty) := by
  have kept := kept_of_traced traced
  refine ⟨?_, fun permits => ?_⟩
  · rcases kept.fifo.order with ⟨thread, item, gives, order⟩ | ⟨nobody, order⟩
    · refine ⟨[item], by simpa using order, by simp, fun other => ?_⟩
      constructor
      · intro member
        exact ⟨thread, by rw [gives, List.mem_singleton.mp member]⟩
      · rintro ⟨giver, also⟩
        exact List.mem_singleton.mpr (kept.excluded.giver gives also)
    · refine ⟨[], by simpa using order, by simp, fun item => ?_⟩
      simp [fun thread => nobody thread item]
  · exact (waiting_of_traced permits traced).unstranded kept.founded kept.excluded

/-- The first list of the main thread. -/
def firstList : SynchList Nat where
  kernel := (firstKernel.construct (.lock 0) 0).construct (.condition 0) 0
  list := []
  phase := fun _ => .idle

/-- It has been made by its constructor. -/
theorem init_firstList : Init 0 0 0 firstList :=
  ⟨⟨firstKernel, [], .start boot_firstKernel, rfl, rfl, rfl⟩, rfl, fun _ => rfl⟩

/-- Two threads wait for an item. -/
def bothRemove : List (Action Nat) :=
  [.other (.fork 1), .other (.fork 2), .other .yield, .remove, .go, .remove, .go]

/-- One item arrives, and is taken while the other thread waits for the next one. -/
def appendOne : List (Action Nat) :=
  bothRemove ++ [.append 7, .go, .go, .go, .other .yield, .other .resume, .go, .go, .go]

/-- The item has been returned, and nobody waits beside another one. -/
theorem delivers_appendOne : ∃ state, Runs.run (step 0 0) firstList appendOne = .ok state ∧
    state.kernel.queue (.condition 0) = [2] ∧
      returned (Runs.record (step 0 0) observe firstList appendOne) = [7] ∧
        state.Quiet 0 0 ∧ state.Unstranded 0 0 := by
  obtain ⟨state, ran, checked⟩ := Runs.exists_of_runsTo
    (show Runs.runsTo (step 0 0) firstList appendOne (fun state =>
      state.kernel.queue (.condition 0) = [2] ∧ state.kernel.available 0 = true ∧
      (∀ thread ∈ state.kernel.currentThread, state.kernel.place thread = .outside) ∧
      ∀ thread ∈ state.kernel.readyList, state.kernel.place thread = .outside) = true
        by decide +kernel)
  simp only [decide_eq_true_eq] at checked
  obtain ⟨queue, free, running, ready⟩ := checked
  have traced : Runs.Traced (step 0 0) (Init 0 0 0) (fun state action => state.permits 0 action)
      observe state ([] ++ Runs.record (step 0 0) observe firstList appendOne) :=
    Runs.Traced.extend (.start init_firstList) (by decide +kernel) ran
  have quiet := (kept_of_traced traced).founded.quiet free running ready
  exact ⟨state, ran, queue, by decide +kernel, quiet,
    (delivers traced).2 (fun _ _ permits => permits) quiet⟩

/-- Two items arrive before either of the threads goes on. -/
def appendTwo : List (Action Nat) :=
  bothRemove ++ [.append 7, .go, .go, .go, .append 8, .go, .go, .go, .other .yield,
    .other .resume, .go, .go, .go, .other .yield, .other .resume]

/-- The second thread sleeps beside the second item, and nobody is left to wake it. -/
theorem stranded_appendTwo : Init 0 0 0 firstList ∧
    ∃ state, Runs.run (step 0 0) firstList appendTwo = .ok state ∧ state.list = [8] ∧
      state.kernel.place 2 = .inWait 0 0 ∧ state.Quiet 0 0 ∧ ¬ state.Unstranded 0 0 := by
  refine ⟨init_firstList, ?_⟩
  obtain ⟨state, ran, checked⟩ := Runs.exists_of_runsTo
    (show Runs.runsTo (step 0 0) firstList appendTwo (fun state =>
      state.list = [8] ∧ state.kernel.place 2 = .inWait 0 0 ∧ state.kernel.status 2 = .blocked ∧
      state.kernel.available 0 = true ∧
      (∀ thread ∈ state.kernel.currentThread, state.kernel.place thread = .outside) ∧
      ∀ thread ∈ state.kernel.readyList, state.kernel.place thread = .outside) = true
        by decide +kernel)
  simp only [decide_eq_true_eq] at checked
  obtain ⟨list, placed, blocked, free, running, ready⟩ := checked
  have traced : Runs.Traced (step 0 0) (Init 0 0 0) (fun _ _ => True)
      observe state ([] ++ Runs.record (step 0 0) observe firstList appendTwo) :=
    Runs.Traced.extend (.start init_firstList) (by decide +kernel) ran
  refine ⟨state, ran, list, placed, (kept_of_traced traced).founded.quiet free running ready, ?_⟩
  intro unstranded
  simp [unstranded 2 placed blocked] at list

end Nachos.Threads.SynchList
