import Nachos.Threads.Semaphores

/-! Locks and mutexes exclude, and what the owner of a lock says about who holds it. -/

namespace Nachos.Threads

variable {gone : Object → Prop} {kernel after : Kernel} {thread : Thread} {object : Object}

/-- Who holds every object: those that took it and have not given it back. -/
abbrev Holders := Object → List Thread

namespace Holders

/-- At first nobody holds anything. -/
def start : Holders := fun _ => []

/-- A thread holds an object from when it takes it to when it gives it back. -/
def apply (holders : Holders) : Event → Holders
  | .passed object thread => Function.update holders object (thread :: holders object)
  | .raised object (some thread) =>
    Function.update holders object ((holders object).erase thread)
  | _ => holders

/-- Locks and mutexes are given back by threads that hold them. -/
def Matched (holders : Holders) : Event → Prop
  | .raised (.lock lock) giver => ∃ thread, giver = some thread ∧ thread ∈ holders (.lock lock)
  | .raised (.mutex mutex) giver =>
    ∃ thread, giver = some thread ∧ thread ∈ holders (.mutex mutex)
  | _ => True

/-- An object is given back by a thread that holds it, or while nobody does. -/
def Returned (object : Object) (holders : Holders) : Event → Prop
  | .raised given giver => given = object →
    holders object = [] ∨ ∃ thread, giver = some thread ∧ thread ∈ holders object
  | _ => True

/-- The threads that hold an object after all that has happened. -/
def since (history : List Event) : Holders := history.foldl apply start

/-- What happens adds to what has happened. -/
theorem since_append (earlier later : List Event) :
    since (earlier ++ later) = later.foldl apply (since earlier) := List.foldl_append

end Holders

/-- A lock or a mutex. -/
def Object.isLock : Object → Bool
  | .lock _ | .mutex _ => true
  | _ => false

/-- What its holder gives back has been given back properly. -/
theorem Holders.Matched.returned {holders : Holders} {event : Event} (isLock : object.isLock = true)
    (matched : holders.Matched event) : holders.Returned object event := by
  cases event with
  | raised given giver =>
    rintro rfl
    cases given with
    | lock | mutex => exact .inr matched
    | semaphore | condition | barrier => cases isLock
  | created | passed | slept | began | left | signalled => trivial

/-- The unit of a lock is with its holder or at the gate. -/
theorem units_add_holders {gate : Gate Thread} {holders : Holders} {events : List Event}
    (flagged : gate.store = min 1)
    (one : gate.units + (holders object).length = 1) (nonneg : 0 ≤ gate.units)
    (accepted : Runs.Accepts Gate.apply Gate.allows gate (events.filterMap (Event.gate object)))
    (returned : Runs.Accepts Holders.apply (Holders.Returned object) holders events) :
    ((events.filterMap (Event.gate object)).foldl Gate.apply gate).units +
      (events.foldl Holders.apply holders object).length = 1 := by
  -- Only events at this object change either of the two numbers.
  induction events generalizing gate holders with
  | nil => exact one
  | cons event rest ih =>
    obtain ⟨allowed, later⟩ := returned
    rw [List.foldl_cons]
    cases event with
    | created | began | left | signalled => exact ih flagged one nonneg accepted later
    | slept at_ sleeper =>
      by_cases same : at_ = object
      · rw [List.filterMap_cons_some (b := .slept sleeper) (by simp [Event.gate, same])] at *
        exact ih flagged one nonneg accepted.2 later
      · rw [List.filterMap_cons_none (by simp [Event.gate, same])] at *
        exact ih flagged one nonneg accepted later
    | passed taken taker =>
      by_cases same : taken = object
      · subst same
        rw [List.filterMap_cons_some (b := .passed taker) (by simp [Event.gate])] at *
        have free := accepted.1.1
        have less : gate.less = gate.units - 1 := by
          simp only [Gate.less, flagged]
          omega
        refine ih flagged ?_ ?_ accepted.2 later
        · simp only [Gate.apply, Holders.apply, Function.update_self, List.length_cons, less]
          omega
        · simp only [Gate.apply, less]
          omega
      · rw [List.filterMap_cons_none (by simp [Event.gate, same])] at *
        refine ih flagged ?_ nonneg accepted later
        rwa [Holders.apply, Function.update_of_ne (Ne.symm same)]
    | raised given giver =>
      by_cases same : given = object
      · subst same
        rw [List.filterMap_cons_some (b := .raised) (by simp [Event.gate])] at *
        rcases allowed rfl with nobody | ⟨owner, rfl, holds⟩
        · -- Nobody holds the object, so its unit is at the gate already.
          simp only [nobody, List.length_nil] at one
          have more : gate.more = 1 := by
            simp only [Gate.more, flagged]
            omega
          refine ih flagged ?_ (by simp [Gate.apply, more]) accepted.2 later
          cases giver with
          | none => simp [Gate.apply, Holders.apply, more, nobody]
          | some giver => simp [Gate.apply, Holders.apply, more, nobody]
        · have length := List.length_erase_of_mem holds
          have held : 0 < (holders given).length := List.length_pos_of_mem holds
          have more : gate.more = 1 := by
            simp only [Gate.more, flagged]
            omega
          refine ih flagged ?_ (by simp [Gate.apply, more]) accepted.2 later
          simp only [Gate.apply, Holders.apply, Function.update_self, more]
          omega
      · rw [List.filterMap_cons_none (by simp [Event.gate, same])] at *
        refine ih flagged ?_ nonneg accepted later
        cases giver with
        | none => exact one
        | some giver => rwa [Holders.apply, Function.update_of_ne (Ne.symm same)]

/-- A lock is created with its one unit. -/
theorem Simulated.created_lock {history : List Event} {initial : Int}
    (simulated : Simulated kernel history) (isLock : object.isLock = true)
    (created : .created object initial ∈ history) : initial = 1 := by
  obtain ⟨number, rfl⟩ := simulated.stored object initial created
  cases object with
  | lock | mutex => rfl
  | semaphore | condition | barrier => cases isLock

/-- A mutual exclusion object, its flag, and the threads that hold it. -/
structure Excludes (kernel : Kernel) (object : Object) (free : Bool) (holders : List Thread) :
    Prop where
  /-- At most one thread holds it. -/
  one : holders.length ≤ 1
  /-- It is taken exactly while somebody holds it. -/
  taken : free = false ↔ ∃ thread, thread ∈ holders
  /-- If it is free while threads sleep on its queue, one that was woken is ready or running. -/
  noLostWakeup : free = true → kernel.queue object ≠ [] →
    ∃ thread ∈ kernel.currentThread.toList ++ kernel.readyList,
      (kernel.place thread).object = some object
  /-- It is ready while interrupts are enabled. -/
  readyToTake : free = true → kernel.queue object ≠ [] → kernel.Settled →
    ∃ thread ∈ kernel.readyList, (kernel.place thread).object = some object

/-- While interrupts are enabled, a thread inside a primitive does not run: it is ready at most. -/
theorem Kernel.Settled.mem_readyList (settled : kernel.Settled)
    (awake : thread ∈ kernel.currentThread.toList ++ kernel.readyList)
    (placed : (kernel.place thread).object = some object) : thread ∈ kernel.readyList := by
  rcases List.mem_append.mp awake with running | ready
  · rw [Option.mem_toList] at running
    -- The CPU is idle, or its thread is outside of all primitives.
    rcases settled with idle | called
    · simp [idle] at running
    · obtain ⟨caller, called⟩ := Option.ne_none_iff_exists'.mp called
      obtain ⟨current, outside⟩ := Kernel.caller_eq_some.mp called
      rw [current, Option.some.injEq] at running
      simp [← running, outside] at placed
  · exact ready

/-- A live gate with one unit excludes, if its holders are the only ones to give it back. -/
theorem excludes_of_simulated {history : List Event} {free : Bool}
    (simulated : Simulated kernel history)
    (returned : Runs.Accepts Holders.apply (Holders.Returned object) Holders.start history)
    (isLock : object.isLock = true) (live : kernel.life object = .live)
    (flag : kernel.units object = if free then 1 else 0) :
    Excludes kernel object free (Holders.since history object) := by
  -- A lock or a mutex is a gate with a flag, which counts no further than to one.
  have isGate : object.isGate = true := by
    cases object <;> first | rfl | cases isLock
  have flagged : object.store = min 1 := by
    cases object <;> first | rfl | cases isLock
  obtain ⟨initial, once, follows⟩ := simulated.live object isGate live
  have created : .created object initial ∈ history := created_of_mem (by simp [once])
  obtain rfl := simulated.created_lock isLock created
  have sound := follows.sound (Gate.sound_fresh (by omega) ?_) flagged (by omega)
  · -- The one unit is at the gate or with its holder.
    have sum : kernel.units object + (Holders.since history object).length = 1 := by
      have total := units_add_holders flagged rfl (by simp [Gate.fresh]) follows.1 returned
      rwa [follows.2] at total
    have nonneg : 0 ≤ kernel.units object := sound.nonneg
    have woken : free = true → kernel.queue object ≠ [] →
        ∃ thread ∈ kernel.currentThread.toList ++ kernel.readyList,
          (kernel.place thread).object = some object := by
      rintro rfl waiters
      -- The unit that nobody has taken is covered by a thread that was woken for it.
      have enough := simulated.scheduled.units_le_dequeued (by simp [live]) sound waiters
      rw [flag, if_pos rfl] at enough
      have nonempty : 0 < (kernel.dequeued object).length := by omega
      obtain ⟨thread, member⟩ := List.length_pos_iff_exists_mem.mp nonempty
      obtain ⟨awake, placed⟩ := List.mem_filter.mp member
      exact ⟨thread, awake, by simpa using placed⟩
    refine ⟨by omega, ?_, woken, ?_⟩
    · rw [← List.length_pos_iff_exists_mem]
      cases free with
      | true =>
        simp only [if_true] at flag
        simp only [reduceCtorEq, false_iff]
        omega
      | false =>
        simp only [Bool.false_eq_true, if_false] at flag
        simp only [true_iff]
        omega
    · intro free waiters settled
      obtain ⟨thread, awake, placed⟩ := woken free waiters
      -- With interrupts enabled it cannot be the one that runs.
      exact ⟨thread, settled.mem_readyList awake placed, placed⟩
  · intro count first last
    rw [flagged]
    omega

/--
Locks and mutexes exclude, and no wake-up is lost, in every run in which they are given back by
threads that hold them.
-/
theorem locks_exclude {main : Thread} {history : List Event}
    (traced : Runs.Traced step (Boot · main) (fun _ _ => True) observe kernel history)
    (matched : Runs.Accepts Holders.apply Holders.Matched Holders.start history) :
    (∀ lock, kernel.life (.lock lock) = .live →
      Excludes kernel (.lock lock) (kernel.available lock)
        (Holders.since history (.lock lock))) ∧
    ∀ mutex, kernel.life (.mutex mutex) = .live →
      Excludes kernel (.mutex mutex) (kernel.mutexValue mutex)
        (Holders.since history (.mutex mutex)) := by
  have simulated := simulated_of_traced traced
  refine ⟨fun lock live => ?_, fun mutex live => ?_⟩
  · refine excludes_of_simulated simulated (matched.mono ?_) rfl live rfl
    intro holders event allowed
    exact Holders.Matched.returned rfl allowed
  · refine excludes_of_simulated simulated (matched.mono ?_) rfl live rfl
    intro holders event allowed
    exact Holders.Matched.returned rfl allowed

/-- Two threads sleep at a lock that the main thread then gives back. -/
def contend : List Action :=
  [.create (.lock 0) 0, .call (.acquire 0), .fork 1, .fork 2, .yield, .call (.acquire 0),
    .call (.acquire 0), .call (.release 0)]

/-- The lock is free, and one of the two is about to run. -/
theorem locks_exclude_contend : ∃ kernel, Runs.run step firstKernel contend = .ok kernel ∧
    kernel.available 0 = true ∧ kernel.queue (.lock 0) = [2] ∧
      ∃ thread ∈ kernel.readyList, (kernel.place thread).object = some (.lock 0) := by
  obtain ⟨kernel, ran, checked⟩ := Runs.exists_of_runsTo
    (show Runs.runsTo step firstKernel contend (fun kernel =>
      kernel.available 0 = true ∧ kernel.queue (.lock 0) = [2] ∧
        kernel.life (.lock 0) = .live ∧ kernel.Settled) = true by decide +kernel)
  simp only [decide_eq_true_eq] at checked
  obtain ⟨free, waiters, live, settled⟩ := checked
  have traced : Runs.Traced step (Boot · 0) (fun _ _ => True) observe kernel
      ([] ++ Runs.record step observe firstKernel contend) :=
    Runs.Traced.extend (.start boot_firstKernel)
      (Runs.guarded_of_forall (fun _ _ _ => trivial) _) ran
  rw [List.nil_append] at traced
  have history : Runs.record step observe firstKernel contend =
      [.created (.lock 0) 1, .passed (.lock 0) 0, .slept (.lock 0) 1, .slept (.lock 0) 2,
        .raised (.lock 0) (some 0)] := by decide +kernel
  have matched : Runs.Accepts Holders.apply Holders.Matched Holders.start
      (Runs.record step observe firstKernel contend) := by
    rw [history]
    simp [Runs.Accepts, Holders.Matched, Holders.apply]
  have excludes := (locks_exclude traced matched).1 0 live
  exact ⟨kernel, ran, free, waiters,
    excludes.readyToTake free (by simp [waiters]) settled⟩

end Nachos.Threads
