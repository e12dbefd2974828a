import Nachos.Threads.Gates

/-! Semaphores count, and nobody sleeps at one beside units that nobody is about to take. -/

namespace Nachos.Threads

variable {gone : Object → Prop} {kernel : Kernel} {thread : Thread} {object : Object}

/-- The threads inside the loop of an object that were dequeued and have not yet resumed. -/
def Kernel.dequeued (kernel : Kernel) (object : Object) : List Thread :=
  (kernel.currentThread.toList ++ kernel.readyList).filter fun thread =>
    (kernel.place thread).object = some object

/-- A thread in the loop of an object, and off its queue, has the CPU or waits for it. -/
theorem Scheduled.mem_dequeued (scheduled : Scheduled gone kernel) (kept : ¬ gone object)
    (placed : (kernel.place thread).object = some object) (off : thread ∉ kernel.queue object) :
    thread ∈ kernel.dequeued object := by
  have awake : thread ∈ kernel.currentThread.toList ++ kernel.readyList := by
    cases status : kernel.status thread with
    | justCreated => simp [scheduled.fresh thread status] at placed
    | running => simp [(scheduled.running thread).mpr status]
    | ready => simp [(scheduled.ready thread).mpr status]
    | blocked =>
      have unfinished : kernel.place thread ≠ .finished := by
        intro finished
        simp [finished] at placed
      obtain ⟨other, there, listed⟩ := scheduled.waiting thread status unfinished
      rw [placed, Option.some.injEq] at there
      subst there
      exact (listed.elim off kept).elim
  exact List.mem_filter.mpr ⟨awake, by simp [placed]⟩

/-- In a live gate that is sound, the dequeued threads make up for the units that are free. -/
theorem Scheduled.units_le_dequeued (scheduled : Scheduled gone kernel) (kept : ¬ gone object)
    (sound : (kernel.gate object).Sound) (waiters : kernel.queue object ≠ []) :
    kernel.units object ≤ (kernel.dequeued object).length := by
  obtain ⟨threads, subset, enough⟩ := sound.covered waiters
  have listed : threads ⊆ (kernel.dequeued object).toFinset := by
    intro thread member
    obtain ⟨placed, off⟩ := subset (Finset.mem_coe.mpr member)
    exact List.mem_toFinset.mpr (scheduled.mem_dequeued kept placed off)
  calc kernel.units object ≤ threads.card := enough
    _ ≤ (kernel.dequeued object).toFinset.card := by exact_mod_cast Finset.card_le_card listed
    _ ≤ (kernel.dequeued object).length := by exact_mod_cast List.toFinset_card_le _

/-- Is an object given back by this event? -/
def Event.raises (object : Object) : Event → Bool
  | .raised given _ => given = object
  | _ => false

/-- Is an object taken by this event? -/
def Event.passes (object : Object) : Event → Bool
  | .passed taken _ => taken = object
  | _ => false

/-- What the events add up to is how often the object was given back, less how often taken. -/
theorem sum_gain (history : List Event) (object : Object) :
    ((history.filterMap (Event.gate object)).map Gate.Event.gain).sum =
      (history.countP (Event.raises object) : Int) - history.countP (Event.passes object) := by
  induction history with
  | nil => simp
  | cons event rest ih =>
    rw [List.countP_cons, List.countP_cons]
    cases event with
    | passed taken thread =>
      by_cases same : taken = object
      · simp [Event.gate, Event.raises, Event.passes, Gate.Event.gain, same, ih]
        omega
      · simp [Event.gate, Event.raises, Event.passes, same, ih]
    | raised given thread =>
      by_cases same : given = object
      · simp [Event.gate, Event.raises, Event.passes, Gate.Event.gain, same, ih]
        omega
      · simp [Event.gate, Event.raises, Event.passes, same, ih]
    | slept at_ thread =>
      by_cases same : at_ = object
      · simp [Event.gate, Event.raises, Event.passes, Gate.Event.gain, same, ih]
      · simp [Event.gate, Event.raises, Event.passes, same, ih]
    | created | began | left | signalled =>
      rw [List.filterMap_cons_none rfl, ih]
      simp [Event.raises, Event.passes]

/-- The creation of an object is in the history once. -/
theorem Simulated.follows {history : List Event} {initial : Int}
    (simulated : Simulated kernel history) (isGate : object.isGate = true)
    (live : kernel.life object = .live) (created : .created object initial ∈ history) :
    (Gate.fresh object.store initial).Follows (history.filterMap (Event.gate object))
      (kernel.gate object) := by
  obtain ⟨only, once, follows⟩ := simulated.live object isGate live
  have member : initial ∈ history.filterMap (Event.creation object) :=
    List.mem_filterMap.mpr ⟨_, created, by simp [Event.creation]⟩
  rw [once, List.mem_singleton] at member
  rwa [member]

/-- The creation of an object is seen as the units that it has. -/
theorem created_of_mem {history : List Event} {initial : Int}
    (listed : initial ∈ history.filterMap (Event.creation object)) :
    .created object initial ∈ history := by
  obtain ⟨event, member, found⟩ := List.mem_filterMap.mp listed
  cases event with
  | created at_ number =>
    simp only [Event.creation, Option.ite_none_right_eq_some, Option.some.injEq] at found
    rwa [← found.1, ← found.2]
  | _ => cases found

/-- The semaphore that is signalled, by a thread or by the handler of an interrupt. -/
def Action.signals : Action → Option SemaphoreName
  | .call (.v semaphore) | .interrupt semaphore => some (.named semaphore)
  | _ => none

/-- A semaphore is signalled although its value is the largest number of an `int`. -/
def Kernel.overflows (kernel : Kernel) (semaphore : SemaphoreName) (action : Action) : Bool :=
  action.signals = some semaphore ∧ kernel.value semaphore = BitVec.intMax 32

/-- What a semaphore promises, after all that has happened since it was created. -/
structure Counts (kernel : Kernel) (history : List Event) (semaphore : SemaphoreName)
    (initial : Int) : Prop where
  /-- The value tells how often it was signalled, less how often it was taken. -/
  value : (kernel.value semaphore).toInt =
    initial + history.countP (Event.raises (.semaphore semaphore)) -
      history.countP (Event.passes (.semaphore semaphore))
  nonneg : 0 ≤ (kernel.value semaphore).toInt
  /-- While threads sleep, those dequeued and not resumed are as many as the value. -/
  covered : kernel.queue (.semaphore semaphore) ≠ [] →
    (kernel.value semaphore).toInt ≤ (kernel.dequeued (.semaphore semaphore)).length

/-- A signal is a `V` of a semaphore that is there. -/
theorem Stepped.signals {action : Action} {after : Kernel} {semaphore : SemaphoreName}
    (stepped : Stepped kernel action after) (signals : action.signals = some semaphore) :
    kernel.life (.semaphore semaphore) = .live ∧ after = kernel.v semaphore ∧
      ∃ giver, observe kernel action after = [.raised (.semaphore semaphore) giver] := by
  cases stepped with
  | @call thread call _ current outside live performed =>
    cases call with
    -- `V` uses the semaphore, so it is there.
    | v number =>
      cases signals
      cases performed
      refine ⟨live _ (by simp [Call.objects]), rfl, some thread, ?_⟩
      simp [observe, current, observeCall]
    | _ => cases signals
  -- The handler of an interrupt signals it in the name of no thread.
  | interrupt settled live =>
    cases signals
    exact ⟨live, rfl, none, rfl⟩
  | _ => cases signals

/-- A thread that goes for an object gives nothing back. -/
theorem raised_notMem_settle {giver : Option Thread} (target : Object) :
    .raised object giver ∉ settle kernel thread target := by
  unfold settle
  split <;> simp

/-- Neither does one in the loop of `Condition::Wait`. -/
theorem raised_notMem_settleWait {giver : Option Thread} (condition lock : Nat) :
    .raised object giver ∉ settleWait kernel thread condition lock := by
  unfold settleWait
  split
  · simp
  · simpa using raised_notMem_settle (.lock lock)

/-- A semaphore is given back by a signal only. -/
theorem signals_of_raised {action : Action} {after : Kernel} {semaphore : SemaphoreName}
    {giver : Option Thread}
    (raised : .raised (.semaphore semaphore) giver ∈ observe kernel action after) :
    action.signals = some semaphore := by
  unfold observe at raised
  split at raised
  · rename_i call thread current
    cases call with
    | v number =>
      simp only [observeCall, List.mem_singleton, Event.raised.injEq, Object.semaphore.injEq]
        at raised
      rw [raised.1]
      rfl
    | p | acquire | lockMutex => exact (raised_notMem_settle _ raised).elim
    -- What these give back is no semaphore.
    | release | unlockMutex | broadcast | barrierWait => simp [observeCall] at raised
    | wait condition lock =>
      -- `Condition::Wait` gives back its lock only.
      simp only [observeCall, List.mem_append, List.mem_cons, reduceCtorEq, false_or] at raised
      rcases raised with given | settled
      · split at given <;> simp at given
      · exact (raised_notMem_settleWait _ _ settled).elim
    | signal condition lock =>
      simp only [observeCall] at raised
      split at raised <;> simp at raised
  · rename_i thread current
    cases placed : kernel.place thread with
    | outside | finished | inBarrier => simp [placed, observeResume] at raised
    | inP | inAcquire | inLock =>
      rw [placed] at raised
      exact (raised_notMem_settle _ raised).elim
    | inWait condition lock =>
      rw [placed] at raised
      exact (raised_notMem_settleWait _ _ raised).elim
  · simp only [observeJoin] at raised
    -- A thread that joins creates the semaphore or finds it, and calls `P`.
    split at raised
    · cases raised
    · rcases List.mem_append.mp raised with new | settled
      · split at new <;> simp at new
      · exact (raised_notMem_settle _ settled).elim
  · simp at raised
  · simp only [List.mem_singleton, Event.raised.injEq, Object.semaphore.injEq] at raised
    rw [raised.1]
    rfl
  · cases raised

/-- A number of units that an `int` holds is stored as it is. -/
theorem store_of_lt {semaphore : SemaphoreName} {units : Int} (nonneg : 0 ≤ units)
    (small : units < 2 ^ 31) : (Object.semaphore semaphore).store units = units :=
  Int.bmod_eq_of_le (by omega) (by omega)

/-- A step that does not signal a semaphore adds no unit that would have to be stored. -/
theorem stores_of_quiet {action : Action} {after : Kernel} {semaphore : SemaphoreName}
    (quiet : action.signals ≠ some semaphore) (gate : Gate Thread) :
    Runs.Accepts Gate.apply Gate.Stores gate
      ((observe kernel action after).filterMap (Event.gate (.semaphore semaphore))) := by
  refine Runs.accepts_of_forall (fun event member gate raised => ?_) gate
  obtain ⟨seen, listed, same⟩ := List.mem_filterMap.mp member
  cases seen with
  -- Only this event adds a unit, and only a signal brings it about.
  | raised given giver =>
    simp only [Event.gate, Option.ite_none_right_eq_some] at same
    exact (quiet (signals_of_raised (same.1 ▸ listed))).elim
  | passed at_ | slept at_ => simp [Event.gate, raised] at same
  | created | began | left | signalled => cases same

/-- While a semaphore does not overflow, every unit that a step adds to it can be stored. -/
theorem stores_of_step {action : Action} {after : Kernel} {semaphore : SemaphoreName}
    (sound : (kernel.gate (.semaphore semaphore)).Sound)
    (stepped : step kernel action = .ok after)
    (bounded : kernel.overflows semaphore action = false) :
    Runs.Accepts Gate.apply Gate.Stores (kernel.gate (.semaphore semaphore))
      ((observe kernel action after).filterMap (Event.gate (.semaphore semaphore))) := by
  by_cases signals : action.signals = some semaphore
  · obtain ⟨-, -, giver, events⟩ := (step_stepped stepped).signals signals
    have below : kernel.value semaphore ≠ BitVec.intMax 32 := by
      simpa [Kernel.overflows, signals] using bounded
    have nonneg : 0 ≤ (kernel.value semaphore).toInt := sound.nonneg
    -- The value is not the largest one of an `int`, so there is one above it.
    have small : (kernel.value semaphore).toInt < 2 ^ 31 - 1 := by
      have top : (BitVec.intMax 32).toInt = 2 ^ 31 - 1 := by decide
      have apart := mt BitVec.toInt_inj.mp below
      have limit := (kernel.value semaphore).toInt_lt
      omega
    have next : (Object.semaphore semaphore).store ((kernel.value semaphore).toInt + 1) =
        (kernel.value semaphore).toInt + 1 := store_of_lt (by omega) (by omega)
    -- The signal is all that is seen of the step.
    simp only [events, List.filterMap_cons, Event.gate, if_pos, List.filterMap_nil]
    exact ⟨fun _ => next, trivial⟩
  · exact stores_of_quiet signals _

/-- A semaphore opens sound if it is created with a number that is not negative. -/
theorem sound_fresh_semaphore {semaphore : SemaphoreName} {initial : Int} (nonneg : 0 ≤ initial)
    (stored : ∃ number, initial = (Object.semaphore semaphore).initialUnits number) :
    (Gate.fresh (Object.semaphore semaphore).store initial : Gate Thread).Sound := by
  obtain ⟨number, equal⟩ := stored
  -- The constructor takes an `int`, so the numbers up to it are stored as they are.
  have small : initial < 2 ^ 31 := by
    have bound := Int.bmod_lt (x := number) (m := 2 ^ 32) (by decide)
    simp only [Object.initialUnits] at equal
    omega
  exact Gate.sound_fresh nonneg fun count first last => store_of_lt first (by omega)

/-- What is known of a semaphore as long as it does not overflow. -/
structure Counting (kernel : Kernel) (history : List Event) (semaphore : SemaphoreName) : Prop where
  simulated : Simulated kernel history
  counted : ∀ initial, .created (.semaphore semaphore) initial ∈ history → 0 ≤ initial →
    kernel.life (.semaphore semaphore) = .live →
      (kernel.gate (.semaphore semaphore)).Sound ∧ (kernel.value semaphore).toInt = initial +
        ((history.filterMap (Event.gate (.semaphore semaphore))).map Gate.Event.gain).sum

/-- It makes all promises then. -/
theorem Counting.counts {history : List Event} {semaphore : SemaphoreName} {initial : Int}
    (counting : Counting kernel history semaphore)
    (live : kernel.life (.semaphore semaphore) = .live)
    (created : .created (.semaphore semaphore) initial ∈ history) (nonneg : 0 ≤ initial) :
    Counts kernel history semaphore initial := by
  obtain ⟨sound, units⟩ := counting.counted initial created nonneg live
  refine ⟨?_, sound.nonneg, fun waiters => ?_⟩
  -- The gains add up to the signals less the units that were taken.
  · rw [units, sum_gain]
    omega
  · exact counting.simulated.scheduled.units_le_dequeued (by simp [live]) sound waiters

/-- A step that does not overflow keeps it. -/
theorem Counting.step {action : Action} {after : Kernel} {history : List Event}
    {semaphore : SemaphoreName} (counting : Counting kernel history semaphore)
    (stepped : step kernel action = .ok after)
    (bounded : kernel.overflows semaphore action = false) :
    Counting after (history ++ observe kernel action after) semaphore := by
  have simulated := counting.simulated
  have next := simulated.step stepped
  refine ⟨next, fun initial created nonneg live => ?_⟩
  -- The creation is in the history or in this step, but it is there once.
  have listed : initial ∈ (history ++ observe kernel action after).filterMap
      (Event.creation (.semaphore semaphore)) :=
    List.mem_filterMap.mpr ⟨_, created, by simp [Event.creation]⟩
  rw [List.filterMap_append] at listed ⊢
  rw [List.map_append, List.sum_append]
  rcases sees_step simulated.scheduled stepped rfl live with
    ⟨before, sees⟩ | ⟨unborn, only, once, follows⟩
  · -- The gate goes on from where it was.
    rw [sees.old, List.append_nil] at listed
    obtain ⟨sound, units⟩ := counting.counted initial (created_of_mem listed) nonneg before
    obtain ⟨later, gained⟩ := sees.follows.counts sound (stores_of_step sound stepped bounded)
    have total : (after.value semaphore).toInt = (kernel.value semaphore).toInt + _ := gained
    exact ⟨later, by omega⟩
  · -- The gate opens in this step, in which nobody can have signalled it.
    obtain ⟨never, nothing⟩ := simulated.unborn _ unborn
    rw [never, once, List.nil_append, List.mem_singleton] at listed
    subst listed
    have quiet : action.signals ≠ some semaphore := fun signals => by
      simp [((step_stepped stepped).signals signals).1] at unborn
    obtain ⟨later, gained⟩ := follows.counts
      (sound_fresh_semaphore nonneg (next.stored _ initial created)) (stores_of_quiet quiet _)
    refine ⟨later, ?_⟩
    rw [nothing, List.map_nil, List.sum_nil, zero_add]
    exact gained

/-- A semaphore that overflows is negative. -/
theorem not_counts_of_overflows {action : Action} {after : Kernel} {history : List Event}
    {semaphore : SemaphoreName} {initial : Int} (stepped : step kernel action = .ok after)
    (overflows : kernel.overflows semaphore action = true) :
    ¬ Counts after history semaphore initial := by
  obtain ⟨signals, top⟩ := of_decide_eq_true overflows
  obtain ⟨-, rfl, -⟩ := (step_stepped stepped).signals signals
  intro counts
  have nonneg := counts.nonneg
  -- The increment of `V` wraps around.
  have value : (kernel.v semaphore).value semaphore = BitVec.intMax 32 + 1 := by
    simp [Kernel.v, top]
  rw [value] at nonneg
  exact absurd nonneg (by decide)

/--
A semaphore counts the calls of `V` and of `P`, its value is never negative, and while threads
sleep on its queue, those that `V` dequeued and that have not resumed are as many as its value, in
every run in which nobody signals it while its value is the largest number of an `int`.

From each state of such a run, the next step breaks this exactly if it is such a signal.
-/
theorem counts_iff_not_overflows {main : Thread} {history : List Event} {semaphore : SemaphoreName}
    {initial : Int}
    (traced : Runs.Traced step (Boot · main)
      (fun kernel action => kernel.overflows semaphore action = false) observe kernel history)
    (live : kernel.life (.semaphore semaphore) = .live)
    (created : .created (.semaphore semaphore) initial ∈ history) (nonneg : 0 ≤ initial) :
    Counts kernel history semaphore initial ∧
      ∀ action after, step kernel action = .ok after →
        after.life (.semaphore semaphore) = .live →
          (Counts after (history ++ observe kernel action after) semaphore initial ↔
            kernel.overflows semaphore action = false) := by
  have counting : Counting kernel history semaphore := by
    refine traced.invariant (Counting · · semaphore) (fun kernel boot => ?_) ?_
    · exact ⟨simulated_boot boot, by simp⟩
    · exact fun before action after history counting bounded stepped =>
        counting.step stepped bounded
  refine ⟨counting.counts live created nonneg, fun action after stepped still => ?_⟩
  constructor
  -- A signal that overflows leaves a negative value, and any other step keeps the count.
  · intro counts
    by_contra overflows
    exact not_counts_of_overflows stepped (by simpa using overflows) counts
  · intro bounded
    exact (counting.step stepped bounded).counts still (List.mem_append_left _ created) nonneg

/-- Two threads wait at an empty semaphore, which is then signalled once. -/
def waitAndSignal : List Action :=
  [.create (.semaphore (.named 0)) 0, .fork 1, .fork 2, .yield, .call (.p 0), .call (.p 0),
    .call (.v 0)]

/-- One of them is dequeued and stands for the one unit, while the other one still sleeps. -/
theorem counts_waitAndSignal :
    ∃ kernel, Runs.run step firstKernel waitAndSignal = .ok kernel ∧
      kernel.queue (.semaphore (.named 0)) = [2] ∧ kernel.value (.named 0) = 1 ∧
        (kernel.value (.named 0)).toInt ≤ (kernel.dequeued (.semaphore (.named 0))).length := by
  obtain ⟨kernel, ran, checked⟩ := Runs.exists_of_runsTo
    (show Runs.runsTo step firstKernel waitAndSignal (fun kernel =>
      kernel.queue (.semaphore (.named 0)) = [2] ∧ kernel.value (.named 0) = 1 ∧
        kernel.life (.semaphore (.named 0)) = .live) = true by decide +kernel)
  simp only [decide_eq_true_eq] at checked
  have traced : Runs.Traced step (Boot · 0)
      (fun kernel action => kernel.overflows (.named 0) action = false) observe kernel
      ([] ++ Runs.record step observe firstKernel waitAndSignal) :=
    Runs.Traced.extend (.start boot_firstKernel) (by decide +kernel) ran
  rw [List.nil_append] at traced
  have counts := (counts_iff_not_overflows traced checked.2.2
    (show Event.created (.semaphore (.named 0)) 0 ∈ _ by decide +kernel) le_rfl).1
  exact ⟨kernel, ran, checked.1, checked.2.1, counts.covered (by simp [checked.1])⟩

/-- A semaphore is created with the largest number of an `int` and signalled once. -/
def fillAndSignal : List Action :=
  [.create (.semaphore (.named 0)) 2147483647, .call (.v 0)]

/-- Its value is then negative, and not what was put in and added. -/
theorem not_counts_fillAndSignal :
    ∃ kernel, Runs.run step firstKernel fillAndSignal = .ok kernel ∧
      .created (.semaphore (.named 0)) 2147483647 ∈
        Runs.record step observe firstKernel fillAndSignal ∧
      kernel.life (.semaphore (.named 0)) = .live ∧
      (kernel.value (.named 0)).toInt = -2147483648 ∧
      ¬ Counts kernel (Runs.record step observe firstKernel fillAndSignal) (.named 0)
        2147483647 := by
  obtain ⟨kernel, ran, checked⟩ := Runs.exists_of_runsTo
    (show Runs.runsTo step firstKernel fillAndSignal (fun kernel =>
      kernel.life (.semaphore (.named 0)) = .live ∧
        (kernel.value (.named 0)).toInt = -2147483648) = true by decide +kernel)
  simp only [decide_eq_true_eq] at checked
  refine ⟨kernel, ran, by decide +kernel, checked.1, checked.2, fun counts => ?_⟩
  have nonneg := counts.nonneg
  rw [checked.2] at nonneg
  exact absurd nonneg (by decide)

end Nachos.Threads
