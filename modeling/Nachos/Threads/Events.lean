import Nachos.Lib.Gate
import Nachos.Threads.Scheduling

/-! What an observer of the kernel sees, and the gates that semaphores, locks and mutexes are. -/

namespace Nachos.Threads

/-- What the primitives do, in terms of their objects. -/
inductive Event where
  /-- An object comes to be, with this number of units. -/
  | created (object : Object) (initial : Int)
  /-- A thread takes a semaphore, a lock or a mutex. -/
  | passed (object : Object) (thread : Thread)
  /-- A thread goes to sleep on the queue of an object. -/
  | slept (object : Object) (thread : Thread)
  /-- A semaphore, lock or mutex is given back, by a thread or by the handler of an interrupt. -/
  | raised (object : Object) (thread : Option Thread)
  /-- A thread enters `Condition::Wait`. -/
  | began (condition : Nat) (thread : Thread)
  /-- A thread leaves the loop of `Condition::Wait`. -/
  | left (condition : Nat) (thread : Thread)
  /-- A thread is taken off the queue by `Condition::Signal`. -/
  | signalled (condition : Nat) (thread : Thread)
  deriving DecidableEq, Repr

/-- The object that an event is about, unless it tells the story of a condition. -/
def Event.about : Event → Option Object
  | .created object _ | .passed object _ | .slept object _ | .raised object _ => some object
  | .began _ _ | .left _ _ | .signalled _ _ => none

/-- Whether a thread took an object or went to sleep is seen from where it is afterwards. -/
def settle (after : Kernel) (thread : Thread) (object : Object) : List Event :=
  if after.place thread = .outside then [.passed object thread] else [.slept object thread]

/-- What a thread did at the loop of `Condition::Wait`, seen from where it is afterwards. -/
def settleWait (after : Kernel) (thread : Thread) (condition lock : Nat) : List Event :=
  if (after.place thread).object = some (.condition condition) then
    [.slept (.condition condition) thread]
  else .left condition thread :: settle after thread (.lock lock)

/-- What happens when a thread calls a primitive. -/
def observeCall (before after : Kernel) (thread : Thread) : Call → List Event
  | .p semaphore => settle after thread (.semaphore (.named semaphore))
  | .v semaphore => [.raised (.semaphore (.named semaphore)) (some thread)]
  | .acquire lock => settle after thread (.lock lock)
  | .release lock => [.raised (.lock lock) (some thread)]
  | .lockMutex mutex => settle after thread (.mutex mutex)
  | .unlockMutex mutex => [.raised (.mutex mutex) (some thread)]
  | .wait condition lock =>
    (if before.isHeldBy lock thread then [.raised (.lock lock) (some thread)] else []) ++
      .began condition thread :: settleWait after thread condition lock
  | .signal condition lock =>
    if before.isHeldBy lock thread then
      (before.queue (.condition condition)).head?.toList.map (.signalled condition)
    else []
  | .broadcast _ _ | .barrierWait _ => []

/-- What happens when a thread goes on inside a primitive. -/
def observeResume (after : Kernel) (thread : Thread) : Place → List Event
  | .outside | .finished | .inBarrier _ => []
  | .inP semaphore => settle after thread (.semaphore semaphore)
  | .inAcquire lock => settle after thread (.lock lock)
  | .inLock mutex => settle after thread (.mutex mutex)
  | .inWait condition lock => settleWait after thread condition lock

/-- What happens when a thread calls `Join`. -/
def observeJoin (before after : Kernel) (caller thread : Thread) : List Event :=
  if before.place thread = .finished then []
  else (if before.life (.semaphore (.ofThread thread)) = .unborn
      then [.created (.semaphore (.ofThread thread)) 0] else []) ++
    settle after caller (.semaphore (.ofThread thread))

/-- The units an object is created with. -/
def Object.initialUnits : Object → Int → Int
  | .semaphore _, initial => initial.bmod (2 ^ 32)
  | .lock _, _ | .mutex _, _ => 1
  | .condition _, _ | .barrier _, _ => 0

/-- A thread settles at the object it went for. -/
theorem about_of_mem_settle {after : Kernel} {thread : Thread} {object : Object} {event : Event}
    (member : event ∈ settle after thread object) : event.about = some object := by
  unfold settle at member
  split at member <;> (rw [List.mem_singleton.mp member]; rfl)

/-- A thread in `Condition::Wait` settles at the condition or at the lock. -/
theorem about_of_mem_settleWait {after : Kernel} {thread : Thread} {condition lock : Nat}
    {event : Event} {object : Object} (member : event ∈ settleWait after thread condition lock)
    (about : event.about = some object) : object = .condition condition ∨ object = .lock lock := by
  unfold settleWait at member
  split at member
  · rw [List.mem_singleton.mp member, Event.about, Option.some.injEq] at about
    exact .inl about.symm
  · rcases List.mem_cons.mp member with rfl | later
    · cases about
    · rw [about_of_mem_settle later, Option.some.injEq] at about
      exact .inr about.symm

/-- What happens in a step. -/
def observe (before : Kernel) (action : Action) (after : Kernel) : List Event :=
  match action, before.currentThread with
  | .call call, some thread => observeCall before after thread call
  | .resume, some thread => observeResume after thread (before.place thread)
  | .join thread, some caller => observeJoin before after caller thread
  | .create object initial, some _ => [.created object (object.initialUnits initial)]
  | .interrupt semaphore, _ => [.raised (.semaphore (.named semaphore)) none]
  | _, _ => []

end Nachos.Threads
