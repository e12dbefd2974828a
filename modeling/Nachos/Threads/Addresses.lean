import Nachos.Threads.Gates

/-! Where the objects of threads are: no two threads that have not ended share an address. -/

namespace Nachos.Threads

variable {gone : Object → Prop} {kernel after : Kernel} {thread : Thread} {action : Action}

/-- No constructor moves a thread. -/
@[simp] theorem Kernel.construct_place (kernel : Kernel) (object : Object) (initial : Int) :
    (kernel.construct object initial).place = kernel.place := by
  cases object <;> rfl

/-- Only the running thread moves. -/
theorem Kernel.place_of_step {other : Thread} (stepped : step kernel action = .ok after)
    (differ : kernel.currentThread ≠ some other) : after.place other = kernel.place other := by
  cases step_stepped stepped with
  -- A primitive moves its caller, and those that it wakes stay where they sleep.
  | call current outside usable performed =>
    exact perform_place_of_ne performed fun same => differ (same ▸ current)
  | resume current usable resumed =>
    exact resume_place_of_ne resumed fun same => differ (same ▸ current)
  | yield current outside =>
    unfold yield
    split <;> rfl
  | fork current outside new vacant => rfl
  | @join caller thread _ current outside forked joined =>
    have apart : other ≠ caller := fun same => differ (same ▸ current)
    -- The thread has ended, or its semaphore is made for the first of those who wait for it.
    unfold join at joined
    split at joined
    · cases joined
      rfl
    · split at joined
      · cases joined
        rw [place_of_enters (enters_p _ caller _) apart, construct_place]
      · cases joined
        exact place_of_enters (enters_p _ caller _) apart
      · cases joined
  | @finish thread _ current outside finished =>
    have apart : other ≠ thread := fun same => differ (same ▸ current)
    -- Those who joined are signalled, and wake up where they were.
    rcases finish_eq_ok.mp finished with ⟨-, rfl⟩ | ⟨-, rfl⟩
    · simp [sleep, Function.update_of_ne apart]
    · simp [sleep, Function.update_of_ne apart, destruct, signalJoiners, (vTimes_frame _ _ _).2.1]
  | create current outside isPublic unborn => rw [construct_place]
  | delete current outside isPublic born => rfl
  | interrupt settled born => rw [(raises_v kernel _).place]
  | dispatch idle ready => simp

/-- A thread that has ended stays where it is. -/
theorem Scheduled.finished_of_step (scheduled : Scheduled gone kernel)
    (stepped : Threads.step kernel action = .ok after) (finished : kernel.place thread = .finished) :
    after.place thread = .finished := by
  have asleep := scheduled.ended thread finished
  -- It does not run any more, so the step is made by another one.
  have away : kernel.currentThread ≠ some thread := by
    intro current
    simp [(scheduled.running thread).mp current] at asleep
  rw [Kernel.place_of_step stepped away, finished]

/-- The running thread has been made and has not ended. -/
theorem Scheduled.current_made (scheduled : Scheduled gone kernel)
    (current : kernel.currentThread = some thread) :
    thread ∈ kernel.created ∧ kernel.place thread ≠ .finished := by
  have running := (scheduled.running thread).mp current
  refine ⟨(scheduled.made thread).mpr (by simp [running]), fun finished => ?_⟩
  simp [scheduled.ended thread finished] at running

namespace Kernel

/-- Where threads are made, and which ones have been. -/
def housing (kernel : Kernel) : (Thread → Nat) × List Thread := (kernel.address, kernel.created)

@[simp] theorem dispatch_housing (kernel : Kernel) : kernel.dispatch.housing = kernel.housing := by
  unfold dispatch
  split <;> rfl

@[simp] theorem wake_housing (kernel : Kernel) (object : Object) :
    (kernel.wake object).housing = kernel.housing := by
  unfold wake
  split <;> rfl

@[simp] theorem sleep_housing (kernel : Kernel) (thread : Thread) (place : Place) :
    (kernel.sleep thread place).housing = kernel.housing := by
  rw [sleep, dispatch_housing]
  rfl

@[simp] theorem block_housing (kernel : Kernel) (thread : Thread) (object : Object)
    (place : Place) : (kernel.block thread object place).housing = kernel.housing := by
  rw [block, sleep_housing]
  rfl

@[simp] theorem p_housing (kernel : Kernel) (thread : Thread) (semaphore : SemaphoreName) :
    (kernel.p thread semaphore).housing = kernel.housing := by
  unfold p
  split
  · rw [block_housing]
  · rfl

@[simp] theorem v_housing (kernel : Kernel) (semaphore : SemaphoreName) :
    (kernel.v semaphore).housing = kernel.housing := kernel.wake_housing (.semaphore semaphore)

@[simp] theorem vTimes_housing (kernel : Kernel) (semaphore : SemaphoreName) (count : Nat) :
    (kernel.vTimes semaphore count).housing = kernel.housing := by
  induction count generalizing kernel with
  | zero => rfl
  | succ count ih => rw [vTimes, ih, v_housing]

@[simp] theorem wakeTimes_housing (kernel : Kernel) (object : Object) (count : Nat) :
    (kernel.wakeTimes object count).housing = kernel.housing := by
  induction count generalizing kernel with
  | zero => rfl
  | succ count ih => rw [wakeTimes, ih, wake_housing]

@[simp] theorem construct_housing (kernel : Kernel) (object : Object) (initial : Int) :
    (kernel.construct object initial).housing = kernel.housing := by
  cases object <;> rfl

@[simp] theorem acquire_housing (kernel : Kernel) (thread : Thread) (lock : Nat) :
    (kernel.acquire thread lock).housing = kernel.housing := by
  unfold acquire
  split
  · rfl
  · rw [block_housing]

@[simp] theorem release_housing (kernel : Kernel) (lock : Nat) :
    (kernel.release lock).housing = kernel.housing := kernel.wake_housing (.lock lock)

@[simp] theorem lockMutex_housing (kernel : Kernel) (thread : Thread) (mutex : Nat) :
    (kernel.lockMutex thread mutex).housing = kernel.housing := by
  unfold lockMutex
  split
  · rfl
  · rw [block_housing]

@[simp] theorem waitLoop_housing (kernel : Kernel) (thread : Thread) (condition lock : Nat) :
    (kernel.waitLoop thread condition lock).housing = kernel.housing := by
  unfold waitLoop
  split
  · rw [block_housing]
  · rw [acquire_housing]
    rfl

/-- No primitive makes a thread. -/
theorem perform_housing {call : Call} (performed : kernel.perform thread call = .ok after) :
    after.housing = kernel.housing := by
  cases call with
  | p | v | acquire | release | lockMutex =>
    cases performed
    simp
  | unlockMutex mutex =>
    cases performed
    exact kernel.wake_housing (.mutex mutex)
  | wait condition lock =>
    cases performed
    rw [wait, waitLoop_housing, releaseHeld]
    -- The lock is given back only by its owner.
    split
    · rw [release_housing]
    · rfl
  | signal condition lock =>
    cases performed
    unfold signal
    split
    · split
      · rfl
      · exact kernel.wake_housing (.condition condition)
    · rfl
  | broadcast condition lock =>
    simp only [perform, broadcast] at performed
    split at performed
    -- The loop of the owner of the lock does not end for an empty queue.
    · cases performed
    · cases performed
      rfl
  | barrierWait barrier =>
    cases performed
    unfold barrierWait
    -- The last one of a round wakes all the others.
    split
    · rw [block_housing]
      rfl
    · exact kernel.wakeTimes_housing (.barrier barrier) _

/-- Nor does a thread that goes on. -/
theorem resume_housing (resumed : kernel.resume thread (kernel.place thread) = .ok after) :
    after.housing = kernel.housing := by
  cases placed : kernel.place thread <;> simp only [placed, resume, Except.ok.injEq] at resumed
  -- There is nothing to go on with outside of the primitives.
  case outside | finished => cases resumed
  case inBarrier =>
    subst resumed
    rfl
  all_goals
    subst resumed
    simp

end Kernel

/-- Threads are made by `Fork` only, and stay where they were made. -/
theorem housing_of_step (stepped : step kernel action = .ok after)
    (unforked : ∀ thread, action ≠ .fork thread) : after.housing = kernel.housing := by
  cases step_stepped stepped with
  | call current outside live performed => exact Kernel.perform_housing performed
  | resume current live resumed => exact Kernel.resume_housing resumed
  | yield current outside =>
    unfold Kernel.yield
    split <;> rfl
  | fork current outside new vacant => exact (unforked _ rfl).elim
  | join current outside forked joined =>
    unfold Kernel.join at joined
    split at joined
    · cases joined
      rfl
    · split at joined <;> cases joined <;> simp
  | finish current outside finished =>
    rcases Kernel.finish_eq_ok.mp finished with ⟨-, rfl⟩ | ⟨-, rfl⟩
    · rw [Kernel.sleep_housing]
    · rw [Kernel.sleep_housing]
      exact kernel.vTimes_housing _ _
  | create current outside isPublic unborn => rw [Kernel.construct_housing]
  | delete current outside isPublic live => rfl
  | interrupt settled live => rw [Kernel.v_housing]
  | dispatch idle ready => rw [Kernel.dispatch_housing]

/-- Threads that have been made and not ended are at different addresses. -/
def Apart (kernel : Kernel) : Prop :=
  ∀ thread ∈ kernel.created, ∀ other ∈ kernel.created, kernel.place thread ≠ .finished →
    kernel.place other ≠ .finished → kernel.address thread = kernel.address other → thread = other

/-- A new thread gets memory in which there is none. -/
theorem Apart.fork (apart : Apart kernel) (vacant : kernel.vacant (kernel.address thread) = true) :
    Apart (kernel.fork thread) := by
  -- Whoever has been there has ended, so the rest are elsewhere.
  have elsewhere : ∀ other ∈ kernel.created, kernel.place other ≠ .finished →
      kernel.address other ≠ kernel.address thread := by
    intro other made unfinished
    have free := List.all_eq_true.mp vacant other made
    simpa [unfinished] using free
  intro first made other also unfinished going same
  -- One of the two may be the new thread, or both, or neither.
  rcases List.mem_cons.mp made with rfl | old
  · rcases List.mem_cons.mp also with rfl | earlier
    · rfl
    · exact (elsewhere other earlier going same.symm).elim
  · rcases List.mem_cons.mp also with rfl | earlier
    · exact (elsewhere first old unfinished same).elim
    · exact apart first old other earlier unfinished going same

/-- Every step keeps the threads apart. -/
theorem Apart.step (apart : Apart kernel) (scheduled : Scheduled gone kernel)
    (stepped : Threads.step kernel action = .ok after) : Apart after := by
  by_cases forks : ∃ thread, action = .fork thread
  · obtain ⟨thread, rfl⟩ := forks
    cases step_stepped stepped with
    | fork current outside new vacant => exact apart.fork vacant
  · have housing := housing_of_step stepped fun thread same => forks ⟨thread, same⟩
    obtain ⟨address, created⟩ := Prod.mk.inj housing
    -- Nobody comes back, so those who go on now went on before.
    have going : ∀ thread, after.place thread ≠ .finished → kernel.place thread ≠ .finished :=
      fun thread unfinished finished =>
        unfinished (scheduled.finished_of_step stepped finished)
    intro first made other also unfinished unended same
    rw [created] at made also
    rw [address] at same
    exact apart first made other also (going first unfinished) (going other unended) same

/-- At the start there is one thread. -/
theorem apart_boot {main : Thread} (boot : Boot kernel main) : Apart kernel := by
  intro first made other also _ _ _
  rw [boot.created, List.mem_singleton] at made also
  rw [made, also]

end Nachos.Threads
