import Nachos.Lib.Runs
import Nachos.Threads.Kernel
import Mathlib.Data.List.Nodup

/-! Every thread is in one place at a time: on the CPU, on the ready list, or on one queue. -/

namespace Nachos.Threads

/--
The lists of the kernel agree with the status and the place of every thread.

Only the waiters of objects that are gone may be missing on their queue.
-/
structure Scheduled (gone : Object → Prop) (kernel : Kernel) : Prop where
  running : ∀ thread, kernel.currentThread = some thread ↔ kernel.status thread = .running
  ready : ∀ thread, thread ∈ kernel.readyList ↔ kernel.status thread = .ready
  readyOnce : kernel.readyList.Nodup
  queued : ∀ thread object, thread ∈ kernel.queue object → kernel.status thread = .blocked ∧
    (kernel.place thread).object = some object ∧ kernel.life object = .live
  queueOnce : ∀ object, (kernel.queue object).Nodup
  waiting : ∀ thread, kernel.status thread = .blocked → kernel.place thread ≠ .finished →
    ∃ object, (kernel.place thread).object = some object ∧
      (thread ∈ kernel.queue object ∨ gone object)
  ended : ∀ thread, kernel.place thread = .finished → kernel.status thread = .blocked
  fresh : ∀ thread, kernel.status thread = .justCreated → kernel.place thread = .outside
  born : ∀ thread object, (kernel.place thread).object = some object →
    kernel.life object ≠ .unborn
  made : ∀ thread, thread ∈ kernel.created ↔ kernel.status thread ≠ .justCreated

/-- What a step needs, and what it does. -/
inductive Stepped (kernel : Kernel) : Action → Kernel → Prop
  | call {thread : Thread} {call : Call} {after : Kernel}
      (current : kernel.currentThread = some thread) (outside : kernel.place thread = .outside)
      (live : ∀ object ∈ call.objects, kernel.life object = .live)
      (performed : kernel.perform thread call = .ok after) : Stepped kernel (.call call) after
  | resume {thread : Thread} {after : Kernel} (current : kernel.currentThread = some thread)
      (live : ∀ object ∈ kernel.needs (kernel.place thread), kernel.life object = .live)
      (resumed : kernel.resume thread (kernel.place thread) = .ok after) :
      Stepped kernel .resume after
  | yield {thread : Thread} (current : kernel.currentThread = some thread)
      (outside : kernel.place thread = .outside) : Stepped kernel .yield (kernel.yield thread)
  | fork {caller thread : Thread} (current : kernel.currentThread = some caller)
      (outside : kernel.place caller = .outside) (new : kernel.status thread = .justCreated)
      (vacant : kernel.vacant (kernel.address thread) = true) :
      Stepped kernel (.fork thread) (kernel.fork thread)
  | join {caller thread : Thread} {after : Kernel} (current : kernel.currentThread = some caller)
      (outside : kernel.place caller = .outside) (forked : kernel.status thread ≠ .justCreated)
      (joined : kernel.join caller thread = .ok after) : Stepped kernel (.join thread) after
  | finish {thread : Thread} {after : Kernel} (current : kernel.currentThread = some thread)
      (outside : kernel.place thread = .outside) (finished : kernel.finish thread = .ok after) :
      Stepped kernel .finish after
  | create {thread : Thread} {object : Object} {initial : Int}
      (current : kernel.currentThread = some thread) (outside : kernel.place thread = .outside)
      (isPublic : object.isPublic = true) (unborn : kernel.life object = .unborn) :
      Stepped kernel (.create object initial) (kernel.construct object initial)
  | delete {thread : Thread} {object : Object} (current : kernel.currentThread = some thread)
      (outside : kernel.place thread = .outside) (isPublic : object.isPublic = true)
      (live : kernel.life object = .live) :
      Stepped kernel (.delete object) (kernel.destruct object)
  | interrupt {semaphore : Nat} (settled : kernel.Settled)
      (live : kernel.life (.semaphore (.named semaphore)) = .live) :
      Stepped kernel (.interrupt semaphore) (kernel.v (.named semaphore))
  | dispatch (idle : kernel.currentThread = none) (ready : kernel.readyList ≠ []) :
      Stepped kernel .dispatch kernel.dispatch

variable {gone : Object → Prop} {kernel : Kernel} {thread : Thread} {object : Object}

/-- The caller is the running thread, outside of the primitives. -/
theorem Kernel.caller_eq_some :
    kernel.caller = some thread ↔
      kernel.currentThread = some thread ∧ kernel.place thread = .outside := by
  simp [Kernel.caller, Option.filter_eq_some_iff]

/-- A step that succeeds had what it needs. -/
theorem step_stepped {action : Action} {after : Kernel} (stepped : step kernel action = .ok after) :
    Stepped kernel action after := by
  cases action with
  | call call =>
    simp only [step] at stepped
    split at stepped
    · cases stepped
    · rename_i thread caller
      obtain ⟨current, outside⟩ := Kernel.caller_eq_some.mp caller
      split at stepped
      · rename_i usable
        exact .call current outside (by simpa [Kernel.usable] using usable) stepped
      · cases stepped
  | resume =>
    simp only [step] at stepped
    split at stepped
    · cases stepped
    · rename_i thread current
      split at stepped
      · rename_i usable
        exact .resume current (by simpa [Kernel.usable] using usable) stepped
      · cases stepped
  | yield =>
    simp only [step] at stepped
    split at stepped
    · cases stepped
    · rename_i thread caller
      obtain ⟨current, outside⟩ := Kernel.caller_eq_some.mp caller
      cases stepped
      exact .yield current outside
  | fork thread =>
    simp only [step] at stepped
    split at stepped
    · cases stepped
    · rename_i caller called
      obtain ⟨current, outside⟩ := Kernel.caller_eq_some.mp called
      split at stepped
      · rename_i possible
        cases stepped
        exact .fork current outside possible.1 possible.2
      · cases stepped
  | join thread =>
    simp only [step] at stepped
    split at stepped
    · cases stepped
    · rename_i caller called
      obtain ⟨current, outside⟩ := Kernel.caller_eq_some.mp called
      split at stepped
      · cases stepped
      · rename_i forked
        exact .join current outside forked stepped
  | finish =>
    simp only [step] at stepped
    split at stepped
    · cases stepped
    · rename_i thread caller
      obtain ⟨current, outside⟩ := Kernel.caller_eq_some.mp caller
      exact .finish current outside stepped
  | create object initial =>
    simp only [step] at stepped
    split at stepped
    · cases stepped
    · rename_i thread caller
      obtain ⟨current, outside⟩ := Kernel.caller_eq_some.mp caller
      split at stepped
      · rename_i allowed
        cases stepped
        exact .create current outside allowed.1 allowed.2
      · cases stepped
  | delete object =>
    simp only [step] at stepped
    split at stepped
    · cases stepped
    · rename_i thread caller
      obtain ⟨current, outside⟩ := Kernel.caller_eq_some.mp caller
      split at stepped
      · rename_i allowed
        cases stepped
        exact .delete current outside allowed.1 allowed.2
      · cases stepped
  | interrupt semaphore =>
    simp only [step] at stepped
    split at stepped
    · rename_i settled
      split at stepped
      · rename_i usable
        cases stepped
        exact .interrupt settled (by simpa [Kernel.usable] using usable)
      · cases stepped
    · cases stepped
  | dispatch =>
    simp only [step] at stepped
    split at stepped
    · rename_i possible
      cases stepped
      exact .dispatch possible.1 possible.2
    · cases stepped

/-- The members of objects do not matter to the scheduler. -/
theorem Scheduled.congr {before after : Kernel} (scheduled : Scheduled gone before)
    (current : after.currentThread = before.currentThread)
    (ready : after.readyList = before.readyList) (status : after.status = before.status)
    (place : after.place = before.place) (life : after.life = before.life)
    (queue : after.queue = before.queue) (created : after.created = before.created) :
    Scheduled gone after := by
  constructor
  · rw [current, status]
    exact scheduled.running
  · rw [ready, status]
    exact scheduled.ready
  · rw [ready]
    exact scheduled.readyOnce
  · rw [queue, status, place, life]
    exact scheduled.queued
  · rw [queue]
    exact scheduled.queueOnce
  · rw [queue, status, place]
    exact scheduled.waiting
  · rw [status, place]
    exact scheduled.ended
  · rw [status, place]
    exact scheduled.fresh
  · rw [place, life]
    exact scheduled.born
  · rw [created, status]
    exact scheduled.made

/-- A thread that does not sleep is on no queue. -/
theorem Scheduled.not_queued (scheduled : Scheduled gone kernel)
    (awake : kernel.status thread ≠ .blocked) (object : Object) : thread ∉ kernel.queue object :=
  fun member => awake (scheduled.queued thread object member).1

/-- A thread that is on one queue is on no other. -/
theorem Scheduled.queue_unique (scheduled : Scheduled gone kernel) {other : Object}
    (here : thread ∈ kernel.queue object) (there : thread ∈ kernel.queue other) :
    object = other := by
  have first := (scheduled.queued thread object here).2.1
  rw [(scheduled.queued thread other there).2.1, Option.some.injEq] at first
  exact first.symm

/-- Nobody but the current thread is running. -/
theorem Scheduled.not_running (scheduled : Scheduled gone kernel) {other : Thread}
    (current : kernel.currentThread = some thread) (differ : other ≠ thread) :
    kernel.status other ≠ .running := by
  intro running
  rw [← scheduled.running other, current, Option.some.injEq] at running
  exact differ running.symm

/-- The next ready thread gets a CPU that nobody uses. -/
theorem Scheduled.dispatch (idle : Scheduled gone { kernel with currentThread := none }) :
    Scheduled gone kernel.dispatch := by
  have nobody : ∀ thread, kernel.status thread ≠ .running := by
    intro thread running
    have current := (idle.running thread).mpr running
    simp at current
  unfold Kernel.dispatch
  split
  · exact idle
  · rename_i next rest ready
    have once : (next :: rest).Nodup := ready ▸ idle.readyOnce
    have awake : kernel.status next = .ready := (idle.ready next).mp (by simp [ready])
    refine ⟨?_, ?_, (List.nodup_cons.mp once).2, ?_, idle.queueOnce, ?_, ?_, ?_, idle.born, ?_⟩
    · intro thread
      by_cases same : thread = next
      · simp [same]
      · simp [Function.update_of_ne same, nobody thread, Ne.symm same]
    · intro thread
      by_cases same : thread = next
      · subst same
        simp [(List.nodup_cons.mp once).1]
      · have listed := idle.ready thread
        simp only [ready, List.mem_cons, same, false_or] at listed
        simpa [Function.update_of_ne same] using listed
    · intro thread object member
      have differ : thread ≠ next := by
        rintro rfl
        exact idle.not_queued (by simp [awake]) object member
      simpa [Function.update_of_ne differ] using idle.queued thread object member
    · intro thread blocked unfinished
      have differ : thread ≠ next := by
        rintro rfl
        simp at blocked
      simp only [Function.update_of_ne differ] at blocked
      exact idle.waiting thread blocked unfinished
    · intro thread finished
      have blocked := idle.ended thread finished
      have differ : thread ≠ next := by
        rintro rfl
        simp [awake] at blocked
      simpa [Function.update_of_ne differ] using blocked
    · intro thread created
      have differ : thread ≠ next := by
        rintro rfl
        simp at created
      simp only [Function.update_of_ne differ] at created
      exact idle.fresh thread created
    · intro thread
      by_cases same : thread = next
      · simpa [same, awake] using idle.made next
      · simpa [Function.update_of_ne same] using idle.made thread

/-- A thread that sleeps on the queue of an object leaves the CPU to the next one. -/
theorem Scheduled.block {place : Place} (scheduled : Scheduled gone kernel)
    (current : kernel.currentThread = some thread) (sleeps : place.object = some object)
    (live : kernel.life object = .live) :
    Scheduled gone (kernel.block thread object place) := by
  have running : kernel.status thread = .running := (scheduled.running thread).mp current
  have absent : ∀ other, thread ∉ kernel.queue other := scheduled.not_queued (by simp [running])
  -- Apart from the sleeping thread itself, every thread keeps its status, place and queue.
  have member : ∀ other queue, other ∈ Function.update kernel.queue object
      (kernel.queue object ++ [thread]) queue ↔
        other ∈ kernel.queue queue ∨ other = thread ∧ queue = object := by
    intro other queue
    by_cases same : queue = object
    · simp [same]
    · simp [same]
  refine Scheduled.dispatch ⟨?_, ?_, scheduled.readyOnce, ?_, ?_, ?_, ?_, ?_, ?_, ?_⟩
  · intro other
    by_cases same : other = thread
    · simp [same]
    · simp [Function.update_of_ne same, scheduled.not_running current same]
  · intro other
    by_cases same : other = thread
    · simp [same, scheduled.ready, running]
    · simpa [Function.update_of_ne same] using scheduled.ready other
  · intro other queue listed
    rcases (member other queue).mp listed with old | ⟨rfl, rfl⟩
    · have differ : other ≠ thread := fun same => absent queue (same ▸ old)
      simpa [Function.update_of_ne differ] using scheduled.queued other queue old
    · simp [sleeps, live]
  · intro queue
    by_cases same : queue = object
    · subst same
      simp only [Function.update_self]
      exact (scheduled.queueOnce queue).append (List.nodup_singleton thread)
        (by simpa using absent queue)
    · simpa [Function.update_of_ne same] using scheduled.queueOnce queue
  · intro other blocked unfinished
    by_cases same : other = thread
    · subst same
      exact ⟨object, by simp [sleeps], .inl ((member other object).mpr (.inr ⟨rfl, rfl⟩))⟩
    · simp only [Function.update_of_ne same] at blocked unfinished ⊢
      obtain ⟨queue, placed, old | gone⟩ := scheduled.waiting other blocked unfinished
      · exact ⟨queue, placed, .inl ((member other queue).mpr (.inl old))⟩
      · exact ⟨queue, placed, .inr gone⟩
  · intro other finished
    by_cases same : other = thread
    · simp [same]
    · simp only [Function.update_of_ne same] at finished ⊢
      exact scheduled.ended other finished
  · intro other created
    by_cases same : other = thread
    · simp [same] at created
    · simp only [Function.update_of_ne same] at created ⊢
      exact scheduled.fresh other created
  · intro other queue there
    by_cases same : other = thread
    · simp only [same, Function.update_self, sleeps, Option.some.injEq] at there
      simp [← there, live]
    · simp only [Function.update_of_ne same] at there
      exact scheduled.born other queue there
  · intro other
    by_cases same : other = thread
    · simpa [same, running] using scheduled.made thread
    · simpa [Function.update_of_ne same] using scheduled.made other

/-- A thread that ends sleeps on no queue. -/
theorem Scheduled.sleep_finished (scheduled : Scheduled gone kernel)
    (current : kernel.currentThread = some thread) :
    Scheduled gone (kernel.sleep thread .finished) := by
  have running : kernel.status thread = .running := (scheduled.running thread).mp current
  refine Scheduled.dispatch
    ⟨?_, ?_, scheduled.readyOnce, ?_, scheduled.queueOnce, ?_, ?_, ?_, ?_, ?_⟩
  · intro other
    by_cases same : other = thread
    · simp [same]
    · simp [Function.update_of_ne same, scheduled.not_running current same]
  · intro other
    by_cases same : other = thread
    · simp [same, scheduled.ready, running]
    · simpa [Function.update_of_ne same] using scheduled.ready other
  · intro other queue listed
    have differ : other ≠ thread := by
      rintro rfl
      exact scheduled.not_queued (by simp [running]) queue listed
    simpa [Function.update_of_ne differ] using scheduled.queued other queue listed
  · intro other blocked unfinished
    by_cases same : other = thread
    · simp [same] at unfinished
    · simp only [Function.update_of_ne same] at blocked unfinished ⊢
      exact scheduled.waiting other blocked unfinished
  · intro other finished
    by_cases same : other = thread
    · simp [same]
    · simp only [Function.update_of_ne same] at finished ⊢
      exact scheduled.ended other finished
  · intro other created
    by_cases same : other = thread
    · simp [same] at created
    · simp only [Function.update_of_ne same] at created ⊢
      exact scheduled.fresh other created
  · intro other queue there
    by_cases same : other = thread
    · simp [same] at there
    · simp only [Function.update_of_ne same] at there
      exact scheduled.born other queue there
  · intro other
    by_cases same : other = thread
    · simpa [same, running] using scheduled.made thread
    · simpa [Function.update_of_ne same] using scheduled.made other

/-- A thread that nobody has started yet may be made ready. -/
theorem Scheduled.fork (scheduled : Scheduled gone kernel)
    (created : kernel.status thread = .justCreated) :
    Scheduled gone (kernel.fork thread) := by
  have absent : ∀ queue, thread ∉ kernel.queue queue := scheduled.not_queued (by simp [created])
  have unlisted : thread ∉ kernel.readyList := by simp [scheduled.ready, created]
  refine ⟨?_, ?_, ?_, ?_, scheduled.queueOnce, ?_, ?_, ?_, scheduled.born, ?_⟩
  · intro other
    by_cases same : other = thread
    · subst same
      simp [Kernel.fork, Kernel.readyToRun, scheduled.running, created]
    · simpa [Kernel.fork, Kernel.readyToRun, Function.update_of_ne same] using scheduled.running other
  · intro other
    by_cases same : other = thread
    · simp [Kernel.fork, Kernel.readyToRun, same]
    · simpa [Kernel.fork, Kernel.readyToRun, Function.update_of_ne same, same] using scheduled.ready other
  · exact scheduled.readyOnce.append (List.nodup_singleton thread) (by simpa using unlisted)
  · intro other queue member
    have differ : other ≠ thread := fun same => absent queue (same ▸ member)
    simpa [Kernel.fork, Kernel.readyToRun, Function.update_of_ne differ] using
      scheduled.queued other queue member
  · intro other blocked unfinished
    have differ : other ≠ thread := by
      rintro rfl
      simp [Kernel.fork, Kernel.readyToRun] at blocked
    simp only [Kernel.fork, Kernel.readyToRun, Function.update_of_ne differ] at blocked
    exact scheduled.waiting other blocked unfinished
  · intro other finished
    have differ : other ≠ thread := by
      rintro rfl
      simp [Kernel.fork, Kernel.readyToRun, scheduled.fresh other created] at finished
    simpa [Kernel.fork, Kernel.readyToRun, Function.update_of_ne differ] using scheduled.ended other finished
  · intro other new
    have differ : other ≠ thread := by
      rintro rfl
      simp [Kernel.fork, Kernel.readyToRun] at new
    simp only [Kernel.fork, Kernel.readyToRun, Function.update_of_ne differ] at new
    exact scheduled.fresh other new
  · intro other
    by_cases same : other = thread
    · simp [Kernel.fork, Kernel.readyToRun, same]
    · simpa [Kernel.fork, Kernel.readyToRun, Function.update_of_ne same, same] using
        scheduled.made other

/-- The first thread of a queue moves to the ready list. -/
theorem Scheduled.wake (scheduled : Scheduled gone kernel) (object : Object) :
    Scheduled gone (kernel.wake object) := by
  unfold Kernel.wake
  split
  · exact scheduled
  · rename_i first rest shape
    have once : (first :: rest).Nodup := shape ▸ scheduled.queueOnce object
    obtain ⟨blocked, placed, live⟩ := scheduled.queued first object (by simp [shape])
    -- A queue keeps its members, except for the one that is woken.
    have member : ∀ other queue, other ∈ Function.update kernel.queue object rest queue ↔
        other ∈ kernel.queue queue ∧ other ≠ first := by
      intro other queue
      by_cases same : queue = object
      · subst same
        have apart : other ∈ rest → other ≠ first := fun listed equal =>
          (List.nodup_cons.mp once).1 (equal ▸ listed)
        simp only [Function.update_self, shape, List.mem_cons]
        grind
      · have apart : other ∈ kernel.queue queue → other ≠ first := by
          rintro listed rfl
          exact same (scheduled.queue_unique listed (by simp [shape]))
        simpa [Function.update_of_ne same] using apart
    refine ⟨?_, ?_, ?_, ?_, ?_, ?_, ?_, ?_, scheduled.born, ?_⟩
    · intro other
      by_cases same : other = first
      · subst same
        simp [Kernel.readyToRun, scheduled.running, blocked]
      · simpa [Kernel.readyToRun, Function.update_of_ne same] using scheduled.running other
    · intro other
      by_cases same : other = first
      · simp [Kernel.readyToRun, same]
      · simpa [Kernel.readyToRun, Function.update_of_ne same, same] using scheduled.ready other
    · have unlisted : first ∉ kernel.readyList := by simp [scheduled.ready, blocked]
      exact scheduled.readyOnce.append (List.nodup_singleton first) (by simpa using unlisted)
    · intro other queue listed
      obtain ⟨old, differ⟩ := (member other queue).mp listed
      simpa [Kernel.readyToRun, Function.update_of_ne differ] using
        scheduled.queued other queue old
    · intro queue
      by_cases same : queue = object
      · simpa [Kernel.readyToRun, same] using (List.nodup_cons.mp once).2
      · simpa [Kernel.readyToRun, Function.update_of_ne same] using scheduled.queueOnce queue
    · intro other asleep unfinished
      have differ : other ≠ first := by
        rintro rfl
        simp [Kernel.readyToRun] at asleep
      simp only [Kernel.readyToRun, Function.update_of_ne differ] at asleep
      obtain ⟨queue, there, listed | gone⟩ := scheduled.waiting other asleep unfinished
      · exact ⟨queue, there, .inl ((member other queue).mpr ⟨listed, differ⟩)⟩
      · exact ⟨queue, there, .inr gone⟩
    · intro other finished
      have differ : other ≠ first := by
        rintro rfl
        have nowhere : kernel.place other = .finished := finished
        simp [nowhere] at placed
      simpa [Kernel.readyToRun, Function.update_of_ne differ] using scheduled.ended other finished
    · intro other new
      have differ : other ≠ first := by
        rintro rfl
        simp [Kernel.readyToRun] at new
      simp only [Kernel.readyToRun, Function.update_of_ne differ] at new
      exact scheduled.fresh other new
    · intro other
      by_cases same : other = first
      · simpa [Kernel.readyToRun, same, blocked] using scheduled.made first
      · simpa [Kernel.readyToRun, Function.update_of_ne same] using scheduled.made other

/-- Waking several threads is waking one after the other. -/
theorem Scheduled.wakeTimes (scheduled : Scheduled gone kernel) (object : Object) (count : Nat) :
    Scheduled gone (kernel.wakeTimes object count) := by
  induction count generalizing kernel with
  | zero => exact scheduled
  | succ count ih => exact ih (scheduled.wake object)

/-- The running thread goes on outside of the primitives. -/
theorem Scheduled.leave (scheduled : Scheduled gone kernel)
    (current : kernel.currentThread = some thread) : Scheduled gone (kernel.leave thread) := by
  have running : kernel.status thread = .running := (scheduled.running thread).mp current
  refine ⟨scheduled.running, scheduled.ready, scheduled.readyOnce, ?_, scheduled.queueOnce,
    ?_, ?_, ?_, ?_, scheduled.made⟩
  · intro other queue listed
    have differ : other ≠ thread := by
      rintro rfl
      exact scheduled.not_queued (by simp [running]) queue listed
    simpa [Kernel.leave, Function.update_of_ne differ] using scheduled.queued other queue listed
  · intro other blocked unfinished
    have differ : other ≠ thread := by
      rintro rfl
      simp [Kernel.leave, running] at blocked
    simp only [Kernel.leave, Function.update_of_ne differ] at unfinished ⊢
    exact scheduled.waiting other blocked unfinished
  · intro other finished
    by_cases same : other = thread
    · simp [Kernel.leave, same] at finished
    · simp only [Kernel.leave, Function.update_of_ne same] at finished
      exact scheduled.ended other finished
  · intro other created
    by_cases same : other = thread
    · simp [Kernel.leave, same]
    · simpa [Kernel.leave, Function.update_of_ne same] using scheduled.fresh other created
  · intro other queue there
    by_cases same : other = thread
    · simp [Kernel.leave, same] at there
    · simp only [Kernel.leave, Function.update_of_ne same] at there
      exact scheduled.born other queue there

/-- The running thread and the first ready one change places. -/
theorem Scheduled.yield (scheduled : Scheduled gone kernel)
    (current : kernel.currentThread = some thread) : Scheduled gone (kernel.yield thread) := by
  have running : kernel.status thread = .running := (scheduled.running thread).mp current
  unfold Kernel.yield
  split
  · exact scheduled
  · rename_i next rest shape
    have once : (next :: rest).Nodup := shape ▸ scheduled.readyOnce
    have awake : kernel.status next = .ready := (scheduled.ready next).mp (by simp [shape])
    have apart : next ≠ thread := by
      rintro rfl
      simp [running] at awake
    have unlisted : thread ∉ rest := by
      intro listed
      have : kernel.status thread = .ready := (scheduled.ready thread).mp (by simp [shape, listed])
      simp [running] at this
    have others : ∀ other, other ≠ next → other ≠ thread →
        Function.update (Function.update kernel.status thread .ready) next .running other =
          kernel.status other := by
      intro other first second
      rw [Function.update_of_ne first, Function.update_of_ne second]
    refine ⟨?_, ?_, ?_, ?_, scheduled.queueOnce, ?_, ?_, ?_, scheduled.born, ?_⟩
    · intro other
      by_cases first : other = next
      · simp [first]
      · by_cases second : other = thread
        · subst second
          simp [Function.update_of_ne first, apart]
        · simpa [others other first second, Ne.symm first] using
            scheduled.not_running current second
    · intro other
      have listed := scheduled.ready other
      by_cases first : other = next
      · subst first
        simp [Kernel.readyToRun, apart, (List.nodup_cons.mp once).1]
      · by_cases second : other = thread
        · subst second
          simp [Kernel.readyToRun, Function.update_of_ne first]
        · simp only [shape, List.mem_cons, first, false_or] at listed
          simpa [Kernel.readyToRun, others other first second, second] using listed
    · exact (List.nodup_cons.mp once).2.append (List.nodup_singleton thread)
        (by simpa using unlisted)
    · intro other queue listed
      have first : other ≠ next := by
        rintro rfl
        exact scheduled.not_queued (by simp [awake]) queue listed
      have second : other ≠ thread := by
        rintro rfl
        exact scheduled.not_queued (by simp [running]) queue listed
      simpa [Kernel.readyToRun, others other first second] using
        scheduled.queued other queue listed
    · intro other blocked unfinished
      have first : other ≠ next := by
        rintro rfl
        simp at blocked
      have second : other ≠ thread := by
        rintro rfl
        simp [Function.update_of_ne first] at blocked
      simp only [others other first second] at blocked
      exact scheduled.waiting other blocked unfinished
    · intro other finished
      have blocked : kernel.status other = .blocked := scheduled.ended other finished
      have first : other ≠ next := by
        rintro rfl
        simp [awake] at blocked
      have second : other ≠ thread := by
        rintro rfl
        simp [running] at blocked
      simpa [others other first second] using blocked
    · intro other created
      have first : other ≠ next := by
        rintro rfl
        simp at created
      have second : other ≠ thread := by
        rintro rfl
        simp [Function.update_of_ne first] at created
      simp only [others other first second] at created
      exact scheduled.fresh other created
    · intro other
      have made := scheduled.made other
      by_cases first : other = next
      · subst first
        simpa [Kernel.readyToRun, awake] using made
      · by_cases second : other = thread
        · subst second
          simpa [Kernel.readyToRun, Function.update_of_ne first, running] using made
        · simpa [Kernel.readyToRun, others other first second] using made

/-- A new object starts with nobody on its queue. -/
theorem Scheduled.construct (scheduled : Scheduled gone kernel)
    (unborn : kernel.life object = .unborn) (initial : Int) :
    Scheduled gone (kernel.construct object initial) := by
  have empty : kernel.queue object = [] := by
    refine List.eq_nil_iff_forall_not_mem.mpr fun thread member => ?_
    simpa [unborn] using (scheduled.queued thread object member).2.2
  have core : Scheduled gone { kernel with
      life := Function.update kernel.life object .live
      queue := Function.update kernel.queue object [] } := by
    rw [← empty, Function.update_eq_self]
    refine ⟨scheduled.running, scheduled.ready, scheduled.readyOnce, ?_, scheduled.queueOnce,
      scheduled.waiting, scheduled.ended, scheduled.fresh, ?_, scheduled.made⟩
    · intro thread queue member
      have differ : queue ≠ object := by
        rintro rfl
        simp [empty] at member
      simpa [Function.update_of_ne differ] using scheduled.queued thread queue member
    · intro thread queue there
      by_cases same : queue = object
      · simp [same]
      · simpa [Function.update_of_ne same] using scheduled.born thread queue there
  cases object <;> exact core.congr rfl rfl rfl rfl rfl rfl rfl

/-- The waiters of an object that is deleted have lost their queue. -/
theorem Scheduled.destruct {later : Object → Prop} (scheduled : Scheduled gone kernel)
    (kept : ∀ object, gone object → later object)
    (lost : kernel.queue object ≠ [] → later object) :
    Scheduled later (kernel.destruct object) := by
  refine ⟨scheduled.running, scheduled.ready, scheduled.readyOnce, ?_, ?_, ?_,
    scheduled.ended, scheduled.fresh, ?_, scheduled.made⟩
  · intro thread queue member
    have differ : queue ≠ object := by
      rintro rfl
      simp [Kernel.destruct] at member
    simp only [Kernel.destruct, Function.update_of_ne differ] at member ⊢
    exact scheduled.queued thread queue member
  · intro queue
    by_cases same : queue = object
    · simp [Kernel.destruct, same]
    · simpa [Kernel.destruct, Function.update_of_ne same] using scheduled.queueOnce queue
  · intro thread blocked unfinished
    obtain ⟨queue, placed, listed | old⟩ := scheduled.waiting thread blocked unfinished
    · refine ⟨queue, placed, ?_⟩
      by_cases same : queue = object
      · subst same
        exact .inr (lost (List.ne_nil_of_mem listed))
      · left
        simpa [Kernel.destruct, Function.update_of_ne same] using listed
    · exact ⟨queue, placed, .inr (kept queue old)⟩
  · intro thread queue there
    by_cases same : queue = object
    · simp [Kernel.destruct, same]
    · simpa [Kernel.destruct, Function.update_of_ne same] using scheduled.born thread queue there

/-- A primitive either takes what it asks for and returns, or puts its caller to sleep. -/
theorem Scheduled.p (scheduled : Scheduled gone kernel)
    (current : kernel.currentThread = some thread) {semaphore : SemaphoreName}
    (live : kernel.life (.semaphore semaphore) = .live) :
    Scheduled gone (kernel.p thread semaphore) := by
  unfold Kernel.p
  split
  · exact scheduled.block current rfl live
  · exact (scheduled.leave current).congr rfl rfl rfl rfl rfl rfl rfl

/-- Giving a semaphore back wakes a waiter. -/
theorem Scheduled.v (scheduled : Scheduled gone kernel) (semaphore : SemaphoreName) :
    Scheduled gone (kernel.v semaphore) :=
  (scheduled.wake (.semaphore semaphore)).congr rfl rfl rfl rfl rfl rfl rfl

/-- Giving a semaphore back several times is giving it back one time after the other. -/
theorem Scheduled.vTimes (scheduled : Scheduled gone kernel) (semaphore : SemaphoreName)
    (count : Nat) : Scheduled gone (kernel.vTimes semaphore count) := by
  induction count generalizing kernel with
  | zero => exact scheduled
  | succ count ih => exact ih (scheduled.v semaphore)

/-- `Lock::Acquire` takes the lock or sleeps. -/
theorem Scheduled.acquire (scheduled : Scheduled gone kernel)
    (current : kernel.currentThread = some thread) {lock : Nat}
    (live : kernel.life (.lock lock) = .live) :
    Scheduled gone (kernel.acquire thread lock) := by
  unfold Kernel.acquire
  split
  · exact (scheduled.leave current).congr rfl rfl rfl rfl rfl rfl rfl
  · exact scheduled.block current rfl live

/-- `Lock::Release` wakes a waiter. -/
theorem Scheduled.release (scheduled : Scheduled gone kernel) (lock : Nat) :
    Scheduled gone (kernel.release lock) :=
  (scheduled.wake (.lock lock)).congr rfl rfl rfl rfl rfl rfl rfl

/-- `Mutex::Lock` takes the mutex or sleeps. -/
theorem Scheduled.lockMutex (scheduled : Scheduled gone kernel)
    (current : kernel.currentThread = some thread) {mutex : Nat}
    (live : kernel.life (.mutex mutex) = .live) :
    Scheduled gone (kernel.lockMutex thread mutex) := by
  unfold Kernel.lockMutex
  split
  · exact (scheduled.leave current).congr rfl rfl rfl rfl rfl rfl rfl
  · exact scheduled.block current rfl live

/-- The loop of `Condition::Wait` sleeps on the condition or goes for the lock. -/
theorem Scheduled.waitLoop (scheduled : Scheduled gone kernel)
    (current : kernel.currentThread = some thread) {condition lock : Nat}
    (live : kernel.life (.condition condition) = .live)
    (lockLive : kernel.isBusy condition = false → kernel.life (.lock lock) = .live) :
    Scheduled gone (kernel.waitLoop thread condition lock) := by
  unfold Kernel.waitLoop
  split
  · exact scheduled.block current rfl live
  · rename_i free
    have freed : Scheduled gone { kernel with
        isBusy := Function.update kernel.isBusy condition true } :=
      scheduled.congr rfl rfl rfl rfl rfl rfl rfl
    exact freed.acquire current (lockLive (by simpa using free))

/-- `Condition::Signal` wakes a waiter or nobody. -/
theorem Scheduled.signal (scheduled : Scheduled gone kernel) (thread : Thread)
    (condition lock : Nat) : Scheduled gone (kernel.signal thread condition lock) := by
  unfold Kernel.signal
  split
  · split
    · exact scheduled
    · exact (scheduled.wake (.condition condition)).congr rfl rfl rfl rfl rfl rfl rfl
  · exact scheduled

/-- `Barrier::Wait` sleeps, or wakes those who came before. -/
theorem Scheduled.barrierWait (scheduled : Scheduled gone kernel)
    (current : kernel.currentThread = some thread) {barrier : Nat}
    (live : kernel.life (.barrier barrier) = .live) :
    Scheduled gone (kernel.barrierWait thread barrier) := by
  unfold Kernel.barrierWait
  split
  · have counted : Scheduled gone { kernel with
        count := Function.update kernel.count barrier (kernel.count barrier + 1) } :=
      scheduled.congr rfl rfl rfl rfl rfl rfl rfl
    exact counted.block current rfl live
  · exact (scheduled.wakeTimes (.barrier barrier) (kernel.size barrier)).congr
      rfl rfl rfl rfl rfl rfl rfl

/-- More objects may be gone than those that are. -/
theorem Scheduled.mono {later : Object → Prop} (scheduled : Scheduled gone kernel)
    (kept : ∀ object, gone object → later object) : Scheduled later kernel := by
  refine { scheduled with waiting := fun thread blocked unfinished => ?_ }
  obtain ⟨object, placed, listed | old⟩ := scheduled.waiting thread blocked unfinished
  · exact ⟨object, placed, .inl listed⟩
  · exact ⟨object, placed, .inr (kept object old)⟩

/-- `Thread::Finish` after it has signalled those who joined. -/
def Kernel.signalJoiners (kernel : Kernel) (thread : Thread) : Kernel :=
  kernel.vTimes (.ofThread thread) (1 - kernel.value (.ofThread thread)).toNat

/-- The object that an action deletes while threads still wait on its queue. -/
def Kernel.abandoned (kernel : Kernel) : Action → Option Object
  | .delete object => if kernel.queue object = [] then none else some object
  | .finish =>
    match kernel.currentThread with
    | none => none
    | some thread =>
      if kernel.life (.semaphore (.ofThread thread)) = .live ∧
          (kernel.signalJoiners thread).queue (.semaphore (.ofThread thread)) ≠ [] then
        some (.semaphore (.ofThread thread))
      else none
  | _ => none

/-- Waking a thread changes neither who runs nor which objects there are. -/
theorem Kernel.wake_frame (kernel : Kernel) (object : Object) :
    (kernel.wake object).currentThread = kernel.currentThread ∧
      (kernel.wake object).place = kernel.place ∧ (kernel.wake object).life = kernel.life := by
  unfold Kernel.wake
  split <;> exact ⟨rfl, rfl, rfl⟩

/-- Neither does giving a semaphore back any number of times. -/
theorem Kernel.vTimes_frame (kernel : Kernel) (semaphore : SemaphoreName) (count : Nat) :
    (kernel.vTimes semaphore count).currentThread = kernel.currentThread ∧
      (kernel.vTimes semaphore count).place = kernel.place ∧
        (kernel.vTimes semaphore count).life = kernel.life := by
  induction count generalizing kernel with
  | zero => exact ⟨rfl, rfl, rfl⟩
  | succ count ih =>
    obtain ⟨current, place, life⟩ := ih (kernel.v semaphore)
    obtain ⟨first, second, third⟩ := kernel.wake_frame (.semaphore semaphore)
    exact ⟨current.trans first, place.trans second, life.trans third⟩

/-- A thread that ends has signalled and deleted its semaphore, if anybody ever joined it. -/
theorem Kernel.finish_eq_ok {after : Kernel} :
    kernel.finish thread = .ok after ↔
      kernel.life (.semaphore (.ofThread thread)) = .unborn ∧
        after = kernel.sleep thread .finished ∨
      kernel.life (.semaphore (.ofThread thread)) = .live ∧
        after = ((kernel.signalJoiners thread).destruct
          (.semaphore (.ofThread thread))).sleep thread .finished := by
  unfold Kernel.finish Kernel.releaseJoiners
  cases kernel.life (.semaphore (.ofThread thread)) with
  | unborn => simp [eq_comm]
  | live => simp [Kernel.signalJoiners, eq_comm]
  | deleted => simp

/-- Every primitive keeps the lists and the threads in agreement. -/
theorem Scheduled.perform {call : Call} {after : Kernel} (scheduled : Scheduled gone kernel)
    (current : kernel.currentThread = some thread)
    (live : ∀ object ∈ call.objects, kernel.life object = .live)
    (performed : kernel.perform thread call = .ok after) : Scheduled gone after := by
  cases call with
  | p semaphore =>
    cases performed
    exact scheduled.p current (live _ (by simp [Call.objects]))
  | v semaphore =>
    cases performed
    exact scheduled.v (.named semaphore)
  | acquire lock =>
    cases performed
    exact scheduled.acquire current (live _ (by simp [Call.objects]))
  | release lock =>
    cases performed
    exact scheduled.release lock
  | lockMutex mutex =>
    cases performed
    exact scheduled.lockMutex current (live _ (by simp [Call.objects]))
  | unlockMutex mutex =>
    cases performed
    exact (scheduled.wake (.mutex mutex)).congr rfl rfl rfl rfl rfl rfl rfl
  | wait condition lock =>
    cases performed
    unfold Kernel.wait Kernel.releaseHeld
    have conditionLive := live (.condition condition) (by simp [Call.objects])
    have lockLive := live (.lock lock) (by simp [Call.objects])
    split
    · obtain ⟨same, -, life⟩ := kernel.wake_frame (.lock lock)
      exact (scheduled.release lock).waitLoop (same.trans current)
        ((congrFun life _).trans conditionLive) fun _ => (congrFun life _).trans lockLive
    · exact scheduled.waitLoop current conditionLive fun _ => lockLive
  | signal condition lock =>
    cases performed
    exact scheduled.signal thread condition lock
  | broadcast condition lock =>
    simp only [Kernel.perform, Kernel.broadcast] at performed
    split at performed
    · cases performed
    · cases performed
      exact scheduled
  | barrierWait barrier =>
    cases performed
    exact scheduled.barrierWait current (live _ (by simp [Call.objects]))

/-- A thread that goes on behind its `Sleep` keeps them in agreement. -/
theorem Scheduled.resume {after : Kernel} (scheduled : Scheduled gone kernel)
    (current : kernel.currentThread = some thread)
    (live : ∀ object ∈ kernel.needs (kernel.place thread), kernel.life object = .live)
    (resumed : kernel.resume thread (kernel.place thread) = .ok after) : Scheduled gone after := by
  cases placed : kernel.place thread with
  | outside => simp [placed, Kernel.resume] at resumed
  | finished => simp [placed, Kernel.resume] at resumed
  | inP semaphore =>
    simp only [placed, Kernel.resume, Except.ok.injEq] at resumed
    exact resumed ▸ scheduled.p current (live _ (by simp [placed, Kernel.needs]))
  | inAcquire lock =>
    simp only [placed, Kernel.resume, Except.ok.injEq] at resumed
    exact resumed ▸ scheduled.acquire current (live _ (by simp [placed, Kernel.needs]))
  | inLock mutex =>
    simp only [placed, Kernel.resume, Except.ok.injEq] at resumed
    exact resumed ▸ scheduled.lockMutex current (live _ (by simp [placed, Kernel.needs]))
  | inWait condition lock =>
    simp only [placed, Kernel.resume, Except.ok.injEq] at resumed
    refine resumed ▸ scheduled.waitLoop current (live _ ?_) fun free => live _ ?_
    · simp only [placed, Kernel.needs]
      split <;> simp
    · simp [placed, Kernel.needs, free]
  | inBarrier barrier =>
    simp only [placed, Kernel.resume, Except.ok.injEq] at resumed
    exact resumed ▸ scheduled.leave current

/-- Every step does, if those it abandons count as gone. -/
theorem Scheduled.step {action : Action} {after : Kernel} {later : Object → Prop}
    (scheduled : Scheduled gone kernel) (stepped : step kernel action = .ok after)
    (kept : ∀ object, gone object → later object)
    (lost : ∀ object, kernel.abandoned action = some object → later object) :
    Scheduled later after := by
  cases step_stepped stepped with
  | call current outside live performed =>
    exact (scheduled.perform current live performed).mono kept
  | resume current live resumed => exact (scheduled.resume current live resumed).mono kept
  | yield current outside => exact (scheduled.yield current).mono kept
  | fork current outside new vacant => exact (scheduled.fork new).mono kept
  | @join caller thread _ current outside forked joined =>
    unfold Kernel.join at joined
    split at joined
    · cases joined
      exact scheduled.mono kept
    · split at joined
      · rename_i unborn
        cases joined
        exact ((scheduled.construct unborn 0).p current (by simp [Kernel.construct])).mono kept
      · rename_i live
        cases joined
        exact (scheduled.p current live).mono kept
      · cases joined
  | @finish thread _ current outside finished =>
    rcases Kernel.finish_eq_ok.mp finished with ⟨-, rfl⟩ | ⟨live, rfl⟩
    · exact (scheduled.sleep_finished current).mono kept
    · have same : (kernel.signalJoiners thread).currentThread = some thread :=
        (kernel.vTimes_frame (.ofThread thread) _).1.trans current
      refine Scheduled.sleep_finished ?_ same
      refine (scheduled.vTimes (.ofThread thread) _).destruct kept fun waiters => lost _ ?_
      simp only [Kernel.abandoned, current]
      rw [if_pos ⟨live, waiters⟩]
  | create current outside isPublic unborn => exact (scheduled.construct unborn _).mono kept
  | delete current outside isPublic live =>
    refine scheduled.destruct kept fun waiters => lost _ ?_
    simp [Kernel.abandoned, waiters]
  | interrupt settled live => exact (scheduled.v _).mono kept
  | dispatch idle ready =>
    have still : Scheduled gone { kernel with currentThread := none } := by
      rw [← idle]
      exact scheduled
    exact still.dispatch.mono kept

/-- At the start only the main thread exists. -/
theorem scheduled_boot {main : Thread} (boot : Boot kernel main) : Scheduled gone kernel := by
  refine ⟨?_, ?_, ?_, ?_, ?_, ?_, ?_, ?_, ?_, ?_⟩
  · intro thread
    by_cases same : thread = main
    · simp [boot.running, boot.statuses, same]
    · simp [boot.running, boot.statuses, Function.update_of_ne same, Ne.symm same]
  · intro thread
    by_cases same : thread = main
    · simp [boot.nobodyReady, boot.statuses, same]
    · simp [boot.nobodyReady, boot.statuses, Function.update_of_ne same]
  · simp [boot.nobodyReady]
  · simp [boot.noQueues]
  · simp [boot.noQueues]
  · intro thread blocked
    by_cases same : thread = main
    · simp [boot.statuses, same] at blocked
    · simp [boot.statuses, Function.update_of_ne same] at blocked
  · simp [boot.places]
  · simp [boot.places]
  · simp [boot.places]
  · intro thread
    by_cases same : thread = main
    · simp [boot.created, boot.statuses, same]
    · simp [boot.created, boot.statuses, same]

/-- Where a thread is to be found: on the CPU, on the ready list, or on a queue, and only there. -/
def Placed (kernel : Kernel) (thread : Thread) : Prop :=
  (kernel.currentThread = some thread ∧ kernel.status thread = .running ∧
    kernel.readyList.count thread = 0 ∧ ∀ object, (kernel.queue object).count thread = 0) ∨
  (kernel.currentThread ≠ some thread ∧ kernel.status thread = .ready ∧
    kernel.readyList.count thread = 1 ∧ ∀ object, (kernel.queue object).count thread = 0) ∨
  (kernel.currentThread ≠ some thread ∧ kernel.status thread = .blocked ∧
    kernel.readyList.count thread = 0 ∧ ∃ object, (kernel.queue object).count thread = 1 ∧
      ∀ other, other ≠ object → (kernel.queue other).count thread = 0)

/-- A thread that has started and not ended is where its status says, if nothing is gone. -/
theorem Scheduled.placed (scheduled : Scheduled (fun _ => False) kernel)
    (forked : kernel.status thread ≠ .justCreated) (unfinished : kernel.place thread ≠ .finished) :
    Placed kernel thread := by
  have awake : kernel.status thread ≠ .blocked →
      ∀ object, (kernel.queue object).count thread = 0 := fun awake object =>
    List.count_eq_zero.mpr (scheduled.not_queued awake object)
  cases status : kernel.status thread with
  | justCreated => exact absurd status forked
  | running =>
    refine .inl ⟨(scheduled.running thread).mpr status, status, ?_, awake (by simp [status])⟩
    simp [List.count_eq_zero, scheduled.ready, status]
  | ready =>
    refine .inr (.inl ⟨by simp [scheduled.running, status], status, ?_, awake (by simp [status])⟩)
    exact List.count_eq_one_of_mem scheduled.readyOnce ((scheduled.ready thread).mpr status)
  | blocked =>
    obtain ⟨object, -, listed | gone⟩ := scheduled.waiting thread status unfinished
    · refine .inr (.inr ⟨by simp [scheduled.running, status], status, ?_, object, ?_, ?_⟩)
      · simp [List.count_eq_zero, scheduled.ready, status]
      · exact List.count_eq_one_of_mem (scheduled.queueOnce object) listed
      · intro other differ
        refine List.count_eq_zero.mpr fun there => differ ?_
        exact scheduled.queue_unique there listed
    · exact gone.elim

/--
In every run in which no object is deleted while threads wait on it, every thread that has been
started and has not ended is in one place, and there once.
-/
theorem placed_of_reachable {main : Thread}
    (reached : Runs.Reachable step (Boot · main)
      (fun kernel action => kernel.abandoned action = none) kernel)
    (forked : kernel.status thread ≠ .justCreated) (unfinished : kernel.place thread ≠ .finished) :
    Placed kernel thread := by
  refine Scheduled.placed ?_ forked unfinished
  refine reached.invariant (Scheduled fun _ => False) (fun _ boot => scheduled_boot boot) ?_
  intro before action after scheduled spared stepped
  exact scheduled.step stepped (fun _ gone => gone) (by simp [spared])

/-- A kernel in which thread 0 runs alone. -/
def firstKernel : Kernel where
  currentThread := some 0
  readyList := []
  status := Function.update (fun _ => .justCreated) 0 .running
  place := fun _ => .outside
  address := id
  created := [0]
  life := fun _ => .unborn
  queue := fun _ => []
  value := fun _ => 0
  available := fun _ => true
  owner := fun _ => none
  mutexValue := fun _ => true
  isBusy := fun _ => true
  size := fun _ => 0
  count := fun _ => 0

/-- It is the state after booting. -/
theorem boot_firstKernel : Boot firstKernel 0 := ⟨rfl, rfl, rfl, rfl, rfl, rfl, rfl⟩

/-- The main thread starts another one and waits for it at a semaphore. -/
def forkAndWait : List Action := [.create (.semaphore (.named 0)) 0, .fork 1, .call (.p 0)]

/-- It is then found on the queue of that semaphore. -/
theorem placed_forkAndWait : ∃ kernel, Runs.run step firstKernel forkAndWait = .ok kernel ∧
    kernel.status 0 = .blocked ∧ Placed kernel 0 := by
  obtain ⟨kernel, ran, checked⟩ := Runs.exists_of_runsTo
    (show Runs.runsTo step firstKernel forkAndWait (fun kernel =>
      kernel.status 0 = .blocked ∧ kernel.place 0 ≠ .finished) = true by decide +kernel)
  simp only [decide_eq_true_eq] at checked
  have reached : Runs.Reachable step (Boot · 0)
      (fun kernel action => kernel.abandoned action = none) kernel :=
    Runs.Reachable.extend (.start boot_firstKernel) (by decide +kernel) ran
  exact ⟨kernel, ran, checked.1, placed_of_reachable reached (by simp [checked.1]) checked.2⟩

end Nachos.Threads
