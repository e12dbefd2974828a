import Nachos.Threads.Locks

/-! Condition variables: who may leave `Condition::Wait`, and who is put back. -/

namespace Nachos.Threads

variable {gone : Object → Prop} {kernel after : Kernel} {thread : Thread} {object : Object}
  {condition : Nat}

/-- The threads that were dequeued by `Signal` and are still in the `Wait` they were in then. -/
abbrev Signals := Nat → List Thread

namespace Signals

/-- At first nobody was signalled. -/
def start : Signals := fun _ => []

/-- A new `Wait` needs a new signal. -/
def apply (signals : Signals) : Event → Signals
  | .signalled condition thread =>
    Function.update signals condition (thread :: signals condition)
  | .began condition thread | .left condition thread =>
    Function.update signals condition ((signals condition).filter (· ≠ thread))
  | _ => signals

/-- A thread leaves the loop after it was signalled, and is not put back then. -/
def Allowed (condition : Nat) (signals : Signals) : Event → Prop
  | .left at_ thread => at_ = condition → thread ∈ signals condition
  | .slept at_ thread => at_ = .condition condition → thread ∉ signals condition
  | _ => True

instance (condition : Nat) (signals : Signals) (event : Event) :
    Decidable (signals.Allowed condition event) := by
  cases event <;> unfold Allowed <;> infer_instance

end Signals

/-- `Wait` begins, and `Signal` dequeues a thread, while no permission is left over. -/
def Kernel.permits (kernel : Kernel) (condition : Nat) : Action → Prop
  | .call (.wait at_ _) => at_ = condition → kernel.isBusy condition = true
  | .call (.signal at_ lock) => at_ = condition → kernel.queue (.condition condition) ≠ [] →
    (∃ thread, kernel.currentThread = some thread ∧ kernel.isHeldBy lock thread = true) →
      kernel.isBusy condition = true
  | _ => True

/-- The flag and the queue of a condition, and who is in its loop, stay as they are. -/
structure Undisturbed (condition : Nat) (kernel after : Kernel) : Prop where
  isBusy : after.isBusy condition = kernel.isBusy condition
  queue : after.queue (.condition condition) = kernel.queue (.condition condition)
  places : ∀ thread, (after.place thread).object = some (.condition condition) ↔
    (kernel.place thread).object = some (.condition condition)

/-- What stays as it is twice stays as it is. -/
theorem Undisturbed.trans {middle : Kernel} (first : Undisturbed condition kernel middle)
    (second : Undisturbed condition middle after) : Undisturbed condition kernel after :=
  ⟨second.isBusy.trans first.isBusy, second.queue.trans first.queue,
    fun thread => (second.places thread).trans (first.places thread)⟩

namespace Kernel

@[simp] theorem dispatch_isBusy (kernel : Kernel) : kernel.dispatch.isBusy = kernel.isBusy := by
  unfold dispatch
  split <;> rfl

@[simp] theorem wake_isBusy (kernel : Kernel) (object : Object) :
    (kernel.wake object).isBusy = kernel.isBusy := by
  unfold wake
  split <;> rfl

@[simp] theorem block_isBusy (kernel : Kernel) (thread : Thread) (object : Object)
    (place : Place) : (kernel.block thread object place).isBusy = kernel.isBusy := by
  simp [block, sleep]

@[simp] theorem p_isBusy (kernel : Kernel) (thread : Thread) (semaphore : SemaphoreName) :
    (kernel.p thread semaphore).isBusy = kernel.isBusy := by
  unfold p
  split
  · rw [block_isBusy]
  · rfl

@[simp] theorem acquire_isBusy (kernel : Kernel) (thread : Thread) (lock : Nat) :
    (kernel.acquire thread lock).isBusy = kernel.isBusy := by
  unfold acquire
  split
  · rfl
  · rw [block_isBusy]

@[simp] theorem lockMutex_isBusy (kernel : Kernel) (thread : Thread) (mutex : Nat) :
    (kernel.lockMutex thread mutex).isBusy = kernel.isBusy := by
  unfold lockMutex
  split
  · rfl
  · rw [block_isBusy]

end Kernel

/-- A thread that goes for something else does not disturb a condition. -/
theorem undisturbed_of_enters (enters : Enters kernel thread object after)
    (isBusy : after.isBusy = kernel.isBusy) (differ : object ≠ .condition condition)
    (away : (kernel.place thread).object ≠ some (.condition condition)) :
    Undisturbed condition kernel after := by
  refine ⟨by rw [isBusy], ?_, fun other => ?_⟩
  · cases enters with
    | slept place nothing sleeps result =>
      rw [result, Kernel.block_queue, Function.update_of_ne (Ne.symm differ)]
    | passed something queue place taken => rw [queue]
  · by_cases same : other = thread
    · subst same
      cases enters with
      | slept place nothing sleeps result => simp [result, sleeps, away, differ]
      | passed something queue place taken => simp [place, away]
    · rw [Kernel.place_of_enters enters same]

/-- Waking a thread elsewhere does not disturb a condition. -/
theorem undisturbed_wake (object : Object) (differ : object ≠ .condition condition) :
    Undisturbed condition kernel (kernel.wake object) := by
  refine ⟨by simp, ?_, fun other => by rw [(kernel.wake_frame object).2.1]⟩
  rw [Kernel.wake_queue, Function.update_of_ne (Ne.symm differ)]

/-- Nor does waking several. -/
theorem undisturbed_wakeTimes (object : Object) (differ : object ≠ .condition condition)
    (count : Nat) :
    Undisturbed condition kernel (kernel.wakeTimes object count) := by
  induction count generalizing kernel with
  | zero => exact ⟨rfl, rfl, fun _ => Iff.rfl⟩
  | succ count ih => exact (undisturbed_wake object differ).trans ih

/-- Nor does signalling a semaphore. -/
theorem undisturbed_vTimes (semaphore : SemaphoreName) (count : Nat) :
    Undisturbed condition kernel (kernel.vTimes semaphore count) := by
  induction count generalizing kernel with
  | zero => exact ⟨rfl, rfl, fun _ => Iff.rfl⟩
  | succ count ih =>
    have raised : Undisturbed condition kernel (kernel.v semaphore) :=
      (undisturbed_wake (.semaphore semaphore) (by simp)).trans ⟨rfl, rfl, fun _ => Iff.rfl⟩
    exact raised.trans ih

/-- Nor does creating another object. -/
theorem undisturbed_construct (differ : object ≠ .condition condition) (initial : Int) :
    Undisturbed condition kernel (kernel.construct object initial) := by
  cases object with
  | condition other =>
    have away : condition ≠ other := fun same => differ (congrArg _ same.symm)
    exact ⟨by simp [Kernel.construct, away], by simp [Kernel.construct, away], fun _ => Iff.rfl⟩
  | semaphore | lock | mutex | barrier =>
    exact ⟨rfl, by simp [Kernel.construct], fun _ => Iff.rfl⟩

/-- Nor does deleting one. -/
theorem undisturbed_destruct (differ : object ≠ .condition condition) :
    Undisturbed condition kernel (kernel.destruct object) :=
  ⟨rfl, Function.update_of_ne (Ne.symm differ) _ _, fun _ => Iff.rfl⟩

/-- Nor does going to sleep elsewhere. -/
theorem undisturbed_block {place : Place} (differ : object ≠ .condition condition)
    (sleeps : place.object = some object)
    (away : (kernel.place thread).object ≠ some (.condition condition)) :
    Undisturbed condition kernel (kernel.block thread object place) := by
  refine ⟨by simp, ?_, fun other => ?_⟩
  · rw [Kernel.block_queue, Function.update_of_ne (Ne.symm differ)]
  · by_cases same : other = thread
    · subst same
      simp [sleeps, away, differ]
    · rw [Kernel.block_place, Function.update_of_ne same]

/-- Nor does waiting at another condition. -/
theorem undisturbed_waitLoop {other lock : Nat} (differ : other ≠ condition)
    (away : (kernel.place thread).object ≠ some (.condition condition)) :
    Undisturbed condition kernel (kernel.waitLoop thread other lock) := by
  unfold Kernel.waitLoop
  split
  · exact undisturbed_block (by simpa using differ) rfl away
  · have kept : Undisturbed condition kernel
        { kernel with isBusy := Function.update kernel.isBusy other true } :=
      ⟨Function.update_of_ne (Ne.symm differ) _ _, rfl, fun _ => Iff.rfl⟩
    refine kept.trans ?_
    exact undisturbed_of_enters (enters_acquire _ thread lock) (by simp) (by simp) away

/-- The primitives that do not use a condition do not disturb it. -/
theorem undisturbed_perform {call : Call} (waits : ∀ lock, call ≠ .wait condition lock)
    (signals : ∀ lock, call ≠ .signal condition lock) (outside : kernel.place thread = .outside)
    (performed : kernel.perform thread call = .ok after) :
    Undisturbed condition kernel after := by
  have away : (kernel.place thread).object ≠ some (.condition condition) := by simp [outside]
  have same : Undisturbed condition kernel kernel := ⟨rfl, rfl, fun _ => Iff.rfl⟩
  cases call with
  | p semaphore =>
    cases performed
    exact undisturbed_of_enters (enters_p kernel thread _) (by simp) (by simp) away
  | acquire lock =>
    cases performed
    exact undisturbed_of_enters (enters_acquire kernel thread lock) (by simp) (by simp) away
  | lockMutex mutex =>
    cases performed
    exact undisturbed_of_enters (enters_lockMutex kernel thread mutex) (by simp) (by simp) away
  | v semaphore =>
    cases performed
    exact (undisturbed_wake (.semaphore (.named semaphore)) (by simp)).trans
      ⟨rfl, rfl, fun _ => Iff.rfl⟩
  | release lock =>
    cases performed
    exact (undisturbed_wake (.lock lock) (by simp)).trans ⟨rfl, rfl, fun _ => Iff.rfl⟩
  | unlockMutex mutex =>
    cases performed
    exact (undisturbed_wake (.mutex mutex) (by simp)).trans
      ⟨rfl, rfl, fun _ => Iff.rfl⟩
  | wait other lock =>
    cases performed
    have differ : other ≠ condition := by
      rintro rfl
      exact waits lock rfl
    unfold Kernel.wait Kernel.releaseHeld
    split
    · have released : Undisturbed condition kernel (kernel.release lock) :=
        (undisturbed_wake (.lock lock) (by simp)).trans ⟨rfl, rfl, fun _ => Iff.rfl⟩
      refine released.trans (undisturbed_waitLoop differ ?_)
      rw [Ne, released.places]
      exact away
    · exact undisturbed_waitLoop differ away
  | signal other lock =>
    cases performed
    have differ : other ≠ condition := by
      rintro rfl
      exact signals lock rfl
    unfold Kernel.signal
    split
    · split
      · exact same
      · refine (undisturbed_wake (.condition other) (by simpa using differ)).trans
          ⟨?_, rfl, fun _ => Iff.rfl⟩
        simp [Function.update_of_ne (Ne.symm differ)]
    · exact same
  | broadcast other lock =>
    simp only [Kernel.perform, Kernel.broadcast] at performed
    split at performed
    · cases performed
    · cases performed
      exact same
  | barrierWait barrier =>
    cases performed
    unfold Kernel.barrierWait
    split
    · have counted : Undisturbed condition kernel { kernel with
          count := Function.update kernel.count barrier (kernel.count barrier + 1) } :=
        ⟨rfl, rfl, fun _ => Iff.rfl⟩
      exact counted.trans (undisturbed_block (by simp) rfl away)
    · exact (undisturbed_wakeTimes (.barrier barrier) (by simp) _).trans
        ⟨rfl, rfl, fun _ => Iff.rfl⟩

/-- A thread that goes on elsewhere does not disturb a condition. -/
theorem undisturbed_resume
    (away : (kernel.place thread).object ≠ some (.condition condition))
    (resumed : kernel.resume thread (kernel.place thread) = .ok after) :
    Undisturbed condition kernel after := by
  cases placed : kernel.place thread with
  | outside | finished => simp [placed, Kernel.resume] at resumed
  | inP semaphore =>
    simp only [placed, Kernel.resume, Except.ok.injEq] at resumed
    exact resumed ▸ undisturbed_of_enters (enters_p kernel thread _) (by simp) (by simp) away
  | inAcquire lock =>
    simp only [placed, Kernel.resume, Except.ok.injEq] at resumed
    exact resumed ▸ undisturbed_of_enters (enters_acquire kernel thread lock) (by simp) (by simp)
      away
  | inLock mutex =>
    simp only [placed, Kernel.resume, Except.ok.injEq] at resumed
    exact resumed ▸ undisturbed_of_enters (enters_lockMutex kernel thread mutex) (by simp)
      (by simp) away
  | inWait other lock =>
    simp only [placed, Kernel.resume, Except.ok.injEq] at resumed
    exact resumed ▸ undisturbed_waitLoop (by simpa [placed, Place.object] using away) away
  | inBarrier barrier =>
    simp only [placed, Kernel.resume, Except.ok.injEq] at resumed
    refine resumed ▸ ⟨rfl, rfl, fun other => ?_⟩
    by_cases same : other = thread
    · simp [same, Kernel.leave, placed, Place.object]
    · simp [Kernel.leave, Function.update_of_ne same]

/-- While the condition is busy nobody is on the way out, and else one thread, that was signalled. -/
structure Permitted (kernel : Kernel) (signals : Signals) (condition : Nat) : Prop where
  busy : kernel.isBusy condition = true → ∀ thread,
    (kernel.place thread).object = some (.condition condition) →
      thread ∈ kernel.queue (.condition condition)
  one : ∀ first second, (kernel.place first).object = some (.condition condition) →
    first ∉ kernel.queue (.condition condition) →
    (kernel.place second).object = some (.condition condition) →
    second ∉ kernel.queue (.condition condition) → first = second
  signalled : ∀ thread, (kernel.place thread).object = some (.condition condition) →
    thread ∉ kernel.queue (.condition condition) → thread ∈ signals condition

/-- The events that concern a condition. -/
def Event.concerns (condition : Nat) : Event → Bool
  | .began at_ _ | .left at_ _ | .signalled at_ _ => at_ = condition
  | .slept at_ _ => at_ = .condition condition
  | .created _ _ | .passed _ _ | .raised _ _ => false

/-- Other events do not change who was signalled at a condition. -/
theorem signals_eq {signals : Signals} {events : List Event}
    (silent : ∀ event ∈ events, event.concerns condition = false) :
    events.foldl Signals.apply signals condition = signals condition := by
  induction events generalizing signals with
  | nil => rfl
  | cons event rest ih =>
    rw [List.foldl_cons, ih fun later member => silent later (List.mem_cons_of_mem _ member)]
    have away := silent event List.mem_cons_self
    cases event with
    | created | passed | slept | raised => rfl
    | began at_ thread | left at_ thread | signalled at_ thread =>
      have differ : condition ≠ at_ := by
        rintro rfl
        simp [Event.concerns] at away
      exact Function.update_of_ne differ _ _

/-- And they are allowed. -/
theorem allowed_of_silent {signals : Signals} {events : List Event}
    (silent : ∀ event ∈ events, event.concerns condition = false) :
    Runs.Accepts Signals.apply (Signals.Allowed condition) signals events := by
  induction events generalizing signals with
  | nil => trivial
  | cons event rest ih =>
    refine ⟨?_, ih fun later member => silent later (List.mem_cons_of_mem _ member)⟩
    have away := silent event List.mem_cons_self
    cases event with
    | left at_ thread | slept at_ thread =>
      rintro rfl
      simp [Event.concerns] at away
    | created | passed | raised | began | signalled => trivial

/-- A step that does not disturb a condition, and is not about it. -/
theorem Permitted.quiet {signals : Signals} {events : List Event}
    (permitted : Permitted kernel signals condition)
    (undisturbed : Undisturbed condition kernel after)
    (silent : ∀ event ∈ events, event.concerns condition = false) :
    Runs.Accepts Signals.apply (Signals.Allowed condition) signals events ∧
      Permitted after (events.foldl Signals.apply signals) condition := by
  refine ⟨allowed_of_silent silent, ?_, ?_, ?_⟩
  · simp only [undisturbed.isBusy, undisturbed.places, undisturbed.queue]
    exact permitted.busy
  · simp only [undisturbed.places, undisturbed.queue]
    exact permitted.one
  · simp only [undisturbed.places, undisturbed.queue, signals_eq silent]
    exact permitted.signalled

/-- Nobody is on the way out of a condition if all that are in its loop are on its queue. -/
theorem permitted_of_queued {signals : Signals}
    (queued : ∀ thread, (kernel.place thread).object = some (.condition condition) →
      thread ∈ kernel.queue (.condition condition)) : Permitted kernel signals condition :=
  ⟨fun _ => queued, fun first _ here off => (off (queued first here)).elim,
    fun thread here off => (off (queued thread here)).elim⟩

/-- A thread that begins to wait while the condition is busy goes to sleep. -/
theorem Permitted.wait {signals : Signals} {lock : Nat}
    (permitted : Permitted kernel signals condition) (busy : kernel.isBusy condition = true) :
    Runs.Accepts Signals.apply (Signals.Allowed condition) signals
        (observeCall kernel (kernel.wait thread condition lock) thread (.wait condition lock)) ∧
      Permitted (kernel.wait thread condition lock)
        ((observeCall kernel (kernel.wait thread condition lock) thread
          (.wait condition lock)).foldl Signals.apply signals) condition := by
  have released : Undisturbed condition kernel (kernel.releaseHeld thread lock) := by
    unfold Kernel.releaseHeld
    split
    · exact (undisturbed_wake (.lock lock) (by simp)).trans ⟨rfl, rfl, fun _ => Iff.rfl⟩
    · exact ⟨rfl, rfl, fun _ => Iff.rfl⟩
  have slept : kernel.wait thread condition lock =
      (kernel.releaseHeld thread lock).block thread (.condition condition)
        (.inWait condition lock) := by
    rw [Kernel.wait, Kernel.waitLoop, if_pos (released.isBusy.trans busy)]
  have there : ((kernel.wait thread condition lock).place thread).object =
      some (.condition condition) := by
    rw [slept]
    simp [Place.object]
  refine ⟨?_, permitted_of_queued fun other here => ?_⟩
  · simp only [observeCall, settleWait, if_pos there]
    refine Runs.accepts_append.mpr ⟨?_, trivial, fun _ => ?_, trivial⟩
    · split <;> exact allowed_of_silent (by simp [Event.concerns])
    · simp [Signals.apply]
  · rw [slept, Kernel.block_queue, Function.update_self, released.queue, List.mem_append]
    by_cases same : other = thread
    · exact .inr (List.mem_singleton.mpr same)
    · rw [slept, Kernel.block_place, Function.update_of_ne same, released.places] at here
      exact .inl (permitted.busy busy other here)

/-- A thread that is signalled while the condition is busy is alone on the way out. -/
theorem Permitted.signal {signals : Signals} {lock : Nat}
    (permitted : Permitted kernel signals condition)
    (busy : kernel.queue (.condition condition) ≠ [] → kernel.isHeldBy lock thread = true →
      kernel.isBusy condition = true) :
    Runs.Accepts Signals.apply (Signals.Allowed condition) signals
        (observeCall kernel (kernel.signal thread condition lock) thread
          (.signal condition lock)) ∧
      Permitted (kernel.signal thread condition lock)
        ((observeCall kernel (kernel.signal thread condition lock) thread
          (.signal condition lock)).foldl Signals.apply signals) condition := by
  simp only [observeCall, Kernel.signal]
  split
  · rename_i held
    cases shape : kernel.queue (.condition condition) with
    | nil => exact ⟨trivial, permitted⟩
    | cons first rest =>
      have all := permitted.busy (busy (by simp [shape]) held)
      rw [shape] at all
      have place := (kernel.wake_frame (.condition condition)).2.1
      have only : ∀ other, (kernel.place other).object = some (.condition condition) →
          other ∉ rest → other = first := fun other here off =>
        (List.mem_cons.mp (all other here)).resolve_right off
      refine ⟨⟨trivial, trivial⟩, ?_, ?_, ?_⟩
      · simp
      · simp only [Kernel.wake_queue, place, Function.update_self, shape, List.tail_cons]
        intro one other here off there away
        rw [only one here off, only other there away]
      · simp only [Kernel.wake_queue, place, Function.update_self, shape, List.tail_cons]
        intro other here off
        simp [Signals.apply, only other here off]
  · exact ⟨trivial, permitted⟩

/-- A thread that goes on in the loop of a condition leaves it. -/
theorem Permitted.resume {signals : Signals} {lock : Nat}
    (permitted : Permitted kernel signals condition)
    (placed : kernel.place thread = .inWait condition lock)
    (off : thread ∉ kernel.queue (.condition condition)) :
    kernel.isBusy condition = false ∧
      Runs.Accepts Signals.apply (Signals.Allowed condition) signals
        (settleWait (kernel.waitLoop thread condition lock) thread condition lock) ∧
      Permitted (kernel.waitLoop thread condition lock)
        ((settleWait (kernel.waitLoop thread condition lock) thread condition lock).foldl
          Signals.apply signals) condition := by
  have here : (kernel.place thread).object = some (.condition condition) := by
    simp [placed, Place.object]
  have free : kernel.isBusy condition = false := by
    by_contra busy
    exact off (permitted.busy (by simpa using busy) thread here)
  have enters := enters_acquire
    { kernel with isBusy := Function.update kernel.isBusy condition true } thread lock
  have out := acquire_away
    { kernel with isBusy := Function.update kernel.isBusy condition true } thread lock condition
  simp only [Kernel.waitLoop, free, Bool.false_eq_true, if_false, settleWait, if_neg out]
  refine ⟨trivial, ⟨fun _ => permitted.signalled thread here off, ?_⟩,
    permitted_of_queued fun other there => ?_⟩
  · refine allowed_of_silent fun event member => ?_
    unfold settle at member
    split at member <;> (rw [List.mem_singleton.mp member]; simp [Event.concerns])
  · have differ : other ≠ thread := by
      rintro rfl
      exact out there
    rw [Kernel.place_of_enters enters differ] at there
    have listed : other ∈ kernel.queue (.condition condition) := by
      by_contra away
      exact differ (permitted.one other thread there away here off)
    cases enters with
    | slept place nothing sleeps result =>
      rw [result, Kernel.block_queue, Function.update_of_ne (by simp)]
      exact listed
    | passed something queue place taken =>
      rw [queue]
      exact listed

/-- A thread settles at an object that is no condition without being seen at one. -/
theorem concerns_settle (differ : object ≠ .condition condition) :
    ∀ event ∈ settle after thread object, event.concerns condition = false := by
  intro event member
  unfold settle at member
  split at member <;> (rw [List.mem_singleton.mp member]; simp [Event.concerns, differ])

/-- A thread that waits at another condition is not seen at this one. -/
theorem concerns_settleWait {other lock : Nat} (differ : other ≠ condition) :
    ∀ event ∈ settleWait after thread other lock, event.concerns condition = false := by
  intro event member
  unfold settleWait at member
  split at member
  · rw [List.mem_singleton.mp member]
    simpa [Event.concerns] using differ
  · rcases List.mem_cons.mp member with rfl | later
    · simpa [Event.concerns] using differ
    · exact concerns_settle (by simp) event later

/-- The primitives that do not use a condition are not seen at it. -/
theorem concerns_observeCall {call : Call} (waits : ∀ lock, call ≠ .wait condition lock)
    (signals : ∀ lock, call ≠ .signal condition lock) :
    ∀ event ∈ observeCall kernel after thread call, event.concerns condition = false := by
  intro event member
  cases call with
  | p | acquire | lockMutex => exact concerns_settle (by simp) event member
  | v | release | unlockMutex =>
    rw [List.mem_singleton.mp member]
    rfl
  | wait other lock =>
    have differ : other ≠ condition := by
      rintro rfl
      exact waits lock rfl
    rcases List.mem_append.mp member with given | later
    · split at given
      · rw [List.mem_singleton.mp given]
        rfl
      · cases given
    · rcases List.mem_cons.mp later with rfl | settled
      · simpa [Event.concerns] using differ
      · exact concerns_settleWait differ event settled
  | signal other lock =>
    have differ : other ≠ condition := by
      rintro rfl
      exact signals lock rfl
    simp only [observeCall] at member
    split at member
    · obtain ⟨waiter, -, rfl⟩ := List.mem_map.mp member
      simpa [Event.concerns] using differ
    · cases member
  | broadcast | barrierWait => cases member

/-- A thread that goes on elsewhere is not seen at a condition. -/
theorem concerns_observeResume {place : Place} (away : place.object ≠ some (.condition condition)) :
    ∀ event ∈ observeResume after thread place, event.concerns condition = false := by
  cases place with
  | outside | finished | inBarrier => simp [observeResume]
  | inP | inAcquire | inLock => exact concerns_settle (by simp)
  | inWait other lock => exact concerns_settleWait (by simpa [Place.object] using away)

/-- Steps that are no primitives are not seen at a condition. -/
theorem concerns_step {action : Action} (called : ∀ call, action ≠ .call call)
    (resumed : action ≠ .resume) :
    ∀ event ∈ observe kernel action after, event.concerns condition = false := by
  intro event member
  unfold observe at member
  split at member
  · exact (called _ rfl).elim
  · exact (resumed rfl).elim
  · unfold observeJoin at member
    split at member
    · cases member
    · rcases List.mem_append.mp member with new | settled
      · split at new
        · rw [List.mem_singleton.mp new]
          rfl
        · cases new
      · exact concerns_settle (by simp) event settled
  · rw [List.mem_singleton.mp member]
    rfl
  · rw [List.mem_singleton.mp member]
    rfl
  · cases member

/-- Steps that are no primitives do not disturb a condition that is there. -/
theorem undisturbed_step {action : Action} (stepped : step kernel action = .ok after)
    (called : ∀ call, action ≠ .call call) (resumed : action ≠ .resume)
    (live : kernel.life (.condition condition) = .live)
    (kept : after.life (.condition condition) = .live) :
    Undisturbed condition kernel after := by
  cases step_stepped stepped with
  | @call thread call _ current outside usable performed => exact (called call rfl).elim
  | resume => exact (resumed rfl).elim
  | yield current outside =>
    unfold Kernel.yield
    split <;> exact ⟨rfl, rfl, fun _ => Iff.rfl⟩
  | fork current outside new vacant => exact ⟨rfl, rfl, fun _ => Iff.rfl⟩
  | @join caller thread _ current outside forked joined =>
    have away : (kernel.place caller).object ≠ some (.condition condition) := by simp [outside]
    unfold Kernel.join at joined
    split at joined
    · cases joined
      exact ⟨rfl, rfl, fun _ => Iff.rfl⟩
    · split at joined
      · cases joined
        have created : Undisturbed condition kernel
            (kernel.construct (.semaphore (.ofThread thread)) 0) :=
          undisturbed_construct (by simp) 0
        refine created.trans ?_
        exact undisturbed_of_enters (enters_p _ caller _) (by simp) (by simp) away
      · cases joined
        exact undisturbed_of_enters (enters_p kernel caller _) (by simp) (by simp) away
      · cases joined
  | @finish thread _ current outside finished =>
    have slept : ∀ base : Kernel, base.place = kernel.place →
        Undisturbed condition base (base.sleep thread .finished) := by
      intro base same
      refine ⟨by simp [Kernel.sleep], by simp [Kernel.sleep], fun other => ?_⟩
      by_cases equal : other = thread
      · simp [Kernel.sleep, equal, same, outside]
      · simp [Kernel.sleep, Function.update_of_ne equal]
    rcases Kernel.finish_eq_ok.mp finished with ⟨-, rfl⟩ | ⟨-, rfl⟩
    · exact slept kernel rfl
    · have signalled : Undisturbed condition kernel (kernel.signalJoiners thread) :=
        undisturbed_vTimes _ _
      refine (signalled.trans (undisturbed_destruct (by simp))).trans (slept _ ?_)
      exact (kernel.vTimes_frame (.ofThread thread) _).2.1
  | @create thread object initial current outside isPublic unborn =>
    refine undisturbed_construct ?_ initial
    rintro rfl
    simp [live] at unborn
  | @delete thread object current outside isPublic born =>
    refine undisturbed_destruct ?_
    rintro rfl
    simp [Kernel.destruct] at kept
  | @interrupt semaphore settled born =>
    exact (undisturbed_wake (.semaphore (.named semaphore)) (by simp)).trans
      ⟨rfl, rfl, fun _ => Iff.rfl⟩
  | dispatch idle ready => exact ⟨by simp, by simp, by simp⟩

/-- Every step keeps the permissions of a condition in order, if it is permitted. -/
theorem Permitted.step {action : Action} {signals : Signals} (scheduled : Scheduled gone kernel)
    (permitted : Permitted kernel signals condition) (permits : kernel.permits condition action)
    (stepped : step kernel action = .ok after)
    (live : kernel.life (.condition condition) = .live)
    (kept : after.life (.condition condition) = .live) :
    Runs.Accepts Signals.apply (Signals.Allowed condition) signals
        (observe kernel action after) ∧
      Permitted after ((observe kernel action after).foldl Signals.apply signals) condition := by
  by_cases called : ∃ call, action = .call call
  · obtain ⟨call, rfl⟩ := called
    cases step_stepped stepped with
    | @call thread _ _ current outside usable performed =>
      simp only [observe, current]
      by_cases waits : ∃ lock, call = .wait condition lock
      · obtain ⟨lock, rfl⟩ := waits
        cases performed
        exact permitted.wait (permits rfl)
      by_cases signals : ∃ lock, call = .signal condition lock
      · obtain ⟨lock, rfl⟩ := signals
        cases performed
        exact permitted.signal fun waiters held => permits rfl waiters ⟨thread, current, held⟩
      · have noWait : ∀ lock, call ≠ .wait condition lock := fun lock same => waits ⟨lock, same⟩
        have noSignal : ∀ lock, call ≠ .signal condition lock := fun lock same =>
          signals ⟨lock, same⟩
        exact permitted.quiet (undisturbed_perform noWait noSignal outside performed)
          (concerns_observeCall noWait noSignal)
  by_cases resumes : action = .resume
  · subst resumes
    cases step_stepped stepped with
    | @resume thread _ current usable resumed =>
      simp only [observe, current]
      by_cases here : (kernel.place thread).object = some (.condition condition)
      · have running : kernel.status thread = .running := (scheduled.running thread).mp current
        have off : thread ∉ kernel.queue (.condition condition) :=
          scheduled.not_queued (by simp [running]) _
        cases placed : kernel.place thread with
        | inWait other lock =>
          simp only [placed, Place.object, Option.some.injEq, Object.condition.injEq] at here
          subst here
          simp only [placed, Kernel.resume, Except.ok.injEq] at resumed
          exact resumed ▸ (permitted.resume placed off).2
        | outside | finished | inP | inAcquire | inLock | inBarrier =>
          simp [placed, Place.object] at here
      · exact permitted.quiet (undisturbed_resume here resumed) (concerns_observeResume here)
  · have noCall : ∀ call, action ≠ .call call := fun call same => called ⟨call, same⟩
    exact permitted.quiet (undisturbed_step stepped noCall resumes live kept)
      (concerns_step noCall resumes)

/-- Only a condition that is there, and stays, is seen. -/
theorem live_of_concerns {action : Action} {event : Event} (stepped : step kernel action = .ok after)
    (member : event ∈ observe kernel action after) (concerns : event.concerns condition = true) :
    kernel.life (.condition condition) = .live ∧ after.life (.condition condition) = .live := by
  have silent : event.concerns condition ≠ false := by simp [concerns]
  cases step_stepped stepped with
  | @call thread call _ current outside live performed =>
    simp only [observe, current] at member
    rw [Kernel.perform_life performed, and_self]
    by_cases waits : ∃ lock, call = .wait condition lock
    · obtain ⟨lock, rfl⟩ := waits
      exact live _ (by simp [Call.objects])
    by_cases signals : ∃ lock, call = .signal condition lock
    · obtain ⟨lock, rfl⟩ := signals
      exact live _ (by simp [Call.objects])
    · exact (silent (concerns_observeCall (fun lock same => waits ⟨lock, same⟩)
        (fun lock same => signals ⟨lock, same⟩) event member)).elim
  | @resume thread _ current live resumed =>
    simp only [observe, current] at member
    rw [Kernel.resume_life resumed, and_self]
    by_cases here : (kernel.place thread).object = some (.condition condition)
    · cases placed : kernel.place thread with
      | inWait other lock =>
        simp only [placed, Place.object, Option.some.injEq, Object.condition.injEq] at here
        subst here
        refine live _ ?_
        rw [placed, Kernel.needs]
        split <;> simp
      | outside | finished | inP | inAcquire | inLock | inBarrier =>
        simp [placed, Place.object] at here
    · exact (silent (concerns_observeResume here event member)).elim
  | _ => exact (silent (concerns_step (by simp) (by simp) event member)).elim

/-- What the permissions of a condition are for, along a run. -/
structure Orderly (kernel : Kernel) (history : List Event) (condition : Nat) : Prop where
  scheduled : Scheduled (fun object => kernel.life object = .deleted) kernel
  allowed : Runs.Accepts Signals.apply (Signals.Allowed condition) Signals.start history
  permitted : kernel.life (.condition condition) = .live →
    Permitted kernel (history.foldl Signals.apply Signals.start) condition

/-- A step that is permitted keeps the permissions in order. -/
theorem Orderly.step {action : Action} {history : List Event}
    (orderly : Orderly kernel history condition) (permits : kernel.permits condition action)
    (stepped : step kernel action = .ok after) :
    Orderly after (history ++ observe kernel action after) condition := by
  have ages := ages_of_step stepped
  have scheduled := orderly.scheduled.step stepped ages.deleted ages.abandoned
  by_cases both : kernel.life (.condition condition) = .live ∧
      after.life (.condition condition) = .live
  · obtain ⟨allowed, permitted⟩ := (orderly.permitted both.1).step orderly.scheduled permits
      stepped both.1 both.2
    refine ⟨scheduled, Runs.accepts_append.mpr ⟨orderly.allowed, allowed⟩, fun _ => ?_⟩
    rwa [List.foldl_append]
  · have silent : ∀ event ∈ observe kernel action after, event.concerns condition = false := by
      intro event member
      by_contra concerns
      exact both (live_of_concerns stepped member (by simpa using concerns))
    refine ⟨scheduled, Runs.accepts_append.mpr ⟨orderly.allowed, allowed_of_silent silent⟩,
      fun live => ?_⟩
    -- The condition has just been created, so nobody is in its loop.
    have unborn : kernel.life (.condition condition) = .unborn := by
      cases life : kernel.life (.condition condition) with
      | unborn => rfl
      | live => exact (both ⟨life, live⟩).elim
      | deleted => simp [ages.deleted _ life] at live
    obtain ⟨initial, -, rfl⟩ := eq_construct_of_born stepped rfl unborn live
    exact permitted_of_queued fun thread here =>
      (orderly.scheduled.born thread _ here unborn).elim

/--
In every run in which `Wait` begins and `Signal` dequeues only while the condition is busy, every
thread leaves its `Wait` after it was signalled in it, and no thread is put back then; and a
thread that has the CPU in the loop of `Wait` leaves it.
-/
theorem waits_end_by_signal {main : Thread} {history : List Event}
    (traced : Runs.Traced step (Boot · main) (fun kernel action => kernel.permits condition action)
      observe kernel history) :
    Runs.Accepts Signals.apply (Signals.Allowed condition) Signals.start history ∧
      ∀ thread lock, kernel.currentThread = some thread →
        kernel.place thread = .inWait condition lock →
          ∀ after, step kernel .resume = .ok after →
            (after.place thread).object ≠ some (.condition condition) := by
  have orderly : Orderly kernel history condition := by
    refine traced.invariant (Orderly · · condition) ?_ ?_
    · intro kernel boot
      refine ⟨scheduled_boot boot, trivial, fun live => ?_⟩
      simp [boot.noObjects] at live
    · intro kernel action after history orderly permits stepped
      exact orderly.step permits stepped
  refine ⟨orderly.allowed, fun thread lock current placed after stepped => ?_⟩
  cases step_stepped stepped with
  | @resume running _ owns usable resumed =>
    rw [current, Option.some.injEq] at owns
    subst owns
    rw [placed] at usable resumed
    have live : kernel.life (.condition condition) = .live := by
      refine usable _ ?_
      rw [Kernel.needs]
      split <;> simp
    have running := (orderly.scheduled.running thread).mp current
    have off : thread ∉ kernel.queue (.condition condition) :=
      orderly.scheduled.not_queued (by simp [running]) _
    have free := ((orderly.permitted live).resume placed off).1
    simp only [Kernel.resume, Except.ok.injEq] at resumed
    rw [← resumed, Kernel.waitLoop, if_neg (by simp [free])]
    exact acquire_away _ thread lock condition

instance (kernel : Kernel) (lock : Nat) : Decidable (∃ thread,
    kernel.currentThread = some thread ∧ kernel.isHeldBy lock thread = true) :=
  decidable_of_iff _ (Option.any_eq_true (kernel.isHeldBy lock) kernel.currentThread)

instance (kernel : Kernel) (condition : Nat) (action : Action) :
    Decidable (kernel.permits condition action) :=
  match action with
  | .call (.wait _ _) => inferInstanceAs (Decidable (_ → _))
  | .call (.signal _ _) => inferInstanceAs (Decidable (_ → _ → _ → _))
  | .call (.p _) | .call (.v _) | .call (.acquire _) | .call (.release _) | .call (.lockMutex _)
  | .call (.unlockMutex _) | .call (.broadcast _ _) | .call (.barrierWait _) | .resume | .yield
  | .fork _ | .join _ | .finish | .create _ _ | .delete _ | .interrupt _ | .dispatch =>
    .isTrue trivial

/-- Two threads wait at a condition, each of them with the lock. -/
def bothWait : List Action :=
  [.create (.lock 0) 0, .create (.condition 0) 0, .fork 1, .fork 2, .yield,
    .call (.acquire 0), .call (.wait 0 0), .call (.acquire 0), .call (.wait 0 0),
    .call (.acquire 0)]

/-- One of them is signalled and goes on while the other one still waits. -/
def signalOne : List Action := bothWait ++ [.call (.signal 0 0), .call (.release 0), .yield, .resume]

/-- It leaves its `Wait`, as it should. -/
theorem waits_end_by_signal_signalOne :
    ∃ kernel, Runs.run step firstKernel signalOne = .ok kernel ∧ kernel.place 1 = .outside ∧
      Runs.Accepts Signals.apply (Signals.Allowed 0) Signals.start
        (Runs.record step observe firstKernel signalOne) := by
  obtain ⟨kernel, ran, checked⟩ := Runs.exists_of_runsTo
    (show Runs.runsTo step firstKernel signalOne (fun kernel =>
      kernel.place 1 = .outside) = true by decide +kernel)
  have traced : Runs.Traced step (Boot · 0) (fun kernel action => kernel.permits 0 action)
      observe kernel ([] ++ Runs.record step observe firstKernel signalOne) :=
    Runs.Traced.extend (.start boot_firstKernel) (by decide +kernel) ran
  rw [List.nil_append] at traced
  exact ⟨kernel, ran, by simpa using checked, (waits_end_by_signal traced).1⟩

/-- `Wait` and `Signal` are called by the thread that holds the lock. -/
def Kernel.callsHeld (kernel : Kernel) : Action → Bool
  | .call (.wait _ lock) | .call (.signal _ lock) =>
    !kernel.available lock && kernel.currentThread.any fun thread => kernel.isHeldBy lock thread
  | _ => true

/-- Both are signalled, one after the other, before either of them goes on. -/
def signalBoth : List Action :=
  bothWait ++ [.call (.signal 0 0), .call (.signal 0 0), .call (.release 0), .yield, .resume,
    .call (.release 0), .yield, .resume]

/-- The second one is put back, although all calls were made with the lock. -/
theorem not_allowed_signalBoth :
    Runs.Guarded step (fun kernel action => kernel.callsHeld action = true) firstKernel
        signalBoth ∧
      (∃ kernel, Runs.run step firstKernel signalBoth = .ok kernel ∧
        kernel.queue (.condition 0) = [2]) ∧
        ¬ Runs.Accepts Signals.apply (Signals.Allowed 0) Signals.start
          (Runs.record step observe firstKernel signalBoth) := by
  refine ⟨by decide +kernel, ?_, by decide +kernel⟩
  obtain ⟨kernel, ran, checked⟩ := Runs.exists_of_runsTo
    (show Runs.runsTo step firstKernel signalBoth (fun kernel =>
      kernel.queue (.condition 0) = [2]) = true by decide +kernel)
  exact ⟨kernel, ran, by simpa using checked⟩

end Nachos.Threads
