import Nachos.Machine.Translate
import Mathlib.Logic.Function.Basic

/-! Threads, the scheduler, and the synchronisation objects that put threads to sleep. -/

namespace Nachos.Threads

/-- `ThreadStatus`. -/
inductive Status where
  | justCreated
  | running
  | ready
  | blocked
  deriving DecidableEq, Repr

/-- A semaphore is one that programs create, or the one that a thread keeps for `Join`. -/
inductive SemaphoreName where
  | named (id : Nat)
  | ofThread (thread : Thread)
  deriving DecidableEq, Repr

/-- A synchronisation object, named by its class and a number in place of its address. -/
inductive Object where
  | semaphore (name : SemaphoreName)
  | lock (id : Nat)
  | mutex (id : Nat)
  | condition (id : Nat)
  | barrier (id : Nat)
  deriving DecidableEq, Repr

/-- The memory of an object may be used between its constructor and its destructor. -/
inductive Life where
  | unborn
  | live
  | deleted
  deriving DecidableEq, Repr

/-- Where a thread goes on when it runs next. -/
inductive Place where
  /-- Outside of the primitives, with interrupts enabled. -/
  | outside
  /-- In the loop of `Semaphore::P`. -/
  | inP (semaphore : SemaphoreName)
  /-- In the loop of `Lock::Acquire`, which may have been called by `Condition::Wait`. -/
  | inAcquire (lock : Nat)
  /-- In the loop of `Mutex::Lock`. -/
  | inLock (mutex : Nat)
  /-- In the loop of `Condition::Wait`. -/
  | inWait (condition lock : Nat)
  /-- Behind the `Sleep` of `Barrier::Wait`. -/
  | inBarrier (barrier : Nat)
  /-- In the `Sleep` of `Thread::Finish`, from which no thread returns. -/
  | finished
  deriving DecidableEq, Repr

/-- The object on whose queue a thread sleeps. -/
def Place.object : Place → Option Object
  | .outside | .finished => none
  | .inP semaphore => some (.semaphore semaphore)
  | .inAcquire lock => some (.lock lock)
  | .inLock mutex => some (.mutex mutex)
  | .inWait condition _ => some (.condition condition)
  | .inBarrier barrier => some (.barrier barrier)

@[simp] theorem Place.object_outside : Place.outside.object = none := rfl

@[simp] theorem Place.object_finished : Place.finished.object = none := rfl

/-- The scheduler, the threads and the members of all synchronisation objects. -/
structure Kernel where
  /-- The thread that has the CPU; none while the last one to sleep finds nobody to run. -/
  currentThread : Option Thread
  readyList : List Thread
  status : Thread → Status
  place : Thread → Place
  /-- The address that `new Thread` answers when it makes the object of a thread. -/
  address : Thread → Nat
  /-- The threads that have been made so far, the last one first. -/
  created : List Thread
  life : Object → Life
  /-- The `queue` of every object. -/
  queue : Object → List Thread
  /-- `Semaphore::value`. -/
  value : SemaphoreName → BitVec 32
  /-- `Lock::available`. -/
  available : Nat → Bool
  /-- `Lock::owner`, named by the thread that it was set to, even when that one has ended. -/
  owner : Nat → Option Thread
  /-- `Mutex::value`. -/
  mutexValue : Nat → Bool
  /-- `Condition::isBusy`. -/
  isBusy : Nat → Bool
  /-- `Barrier::size`. -/
  size : Nat → Nat
  /-- `Barrier::count`. -/
  count : Nat → Nat

namespace Kernel

/-- `Scheduler::ReadyToRun`. -/
def readyToRun (kernel : Kernel) (thread : Thread) : Kernel :=
  { kernel with
    status := Function.update kernel.status thread .ready
    readyList := kernel.readyList ++ [thread] }

/-- `Scheduler::FindNextToRun` and `Scheduler::Run`; without a ready thread the CPU idles. -/
def dispatch (kernel : Kernel) : Kernel :=
  match kernel.readyList with
  | [] => { kernel with currentThread := none }
  | next :: rest => { kernel with
      currentThread := some next
      readyList := rest
      status := Function.update kernel.status next .running }

/-- `Thread::Sleep` of the running thread, which goes on at a place when it is woken. -/
def sleep (kernel : Kernel) (thread : Thread) (place : Place) : Kernel :=
  { kernel with
    status := Function.update kernel.status thread .blocked
    place := Function.update kernel.place thread place }.dispatch

/-- The body of every waiting loop: append the running thread to a queue and sleep. -/
def block (kernel : Kernel) (thread : Thread) (object : Object) (place : Place) : Kernel :=
  { kernel with
    queue := Function.update kernel.queue object (kernel.queue object ++ [thread])
    }.sleep thread place

/-- Remove the first thread of a queue, if any, and make it ready. -/
def wake (kernel : Kernel) (object : Object) : Kernel :=
  match kernel.queue object with
  | [] => kernel
  | thread :: rest =>
    { kernel with queue := Function.update kernel.queue object rest }.readyToRun thread

/-- Wake as many threads as asked for, while there are any. -/
def wakeTimes (kernel : Kernel) (object : Object) : Nat → Kernel
  | 0 => kernel
  | count + 1 => (kernel.wake object).wakeTimes object count

/-- A primitive returns to its caller. -/
def leave (kernel : Kernel) (thread : Thread) : Kernel :=
  { kernel with place := Function.update kernel.place thread .outside }

/-- `Semaphore::P`, also from the `Sleep` in its loop on. -/
def p (kernel : Kernel) (thread : Thread) (semaphore : SemaphoreName) : Kernel :=
  if kernel.value semaphore = 0 then
    kernel.block thread (.semaphore semaphore) (.inP semaphore)
  else { kernel.leave thread with
    value := Function.update kernel.value semaphore (kernel.value semaphore - 1) }

/-- `Semaphore::V`. -/
def v (kernel : Kernel) (semaphore : SemaphoreName) : Kernel :=
  { kernel.wake (.semaphore semaphore) with
    value := Function.update kernel.value semaphore (kernel.value semaphore + 1) }

/-- `Lock::Acquire`, also from the `Sleep` in its loop on. -/
def acquire (kernel : Kernel) (thread : Thread) (lock : Nat) : Kernel :=
  if kernel.available lock then { kernel.leave thread with
    available := Function.update kernel.available lock false
    owner := Function.update kernel.owner lock (some thread) }
  else kernel.block thread (.lock lock) (.inAcquire lock)

/-- `Lock::Release`, by any thread. -/
def release (kernel : Kernel) (lock : Nat) : Kernel :=
  { kernel.wake (.lock lock) with available := Function.update kernel.available lock true }

/-- `Lock::isHeldByCurrentThread`, which compares addresses. -/
def isHeldBy (kernel : Kernel) (lock : Nat) (thread : Thread) : Bool :=
  (kernel.owner lock).any fun owner => kernel.address owner = kernel.address thread

/-- `Mutex::Lock`, also from the `Sleep` in its loop on. -/
def lockMutex (kernel : Kernel) (thread : Thread) (mutex : Nat) : Kernel :=
  if kernel.mutexValue mutex then { kernel.leave thread with
    mutexValue := Function.update kernel.mutexValue mutex false }
  else kernel.block thread (.mutex mutex) (.inLock mutex)

/-- `Mutex::Unlock`, by any thread. -/
def unlockMutex (kernel : Kernel) (mutex : Nat) : Kernel :=
  { kernel.wake (.mutex mutex) with mutexValue := Function.update kernel.mutexValue mutex true }

/-- `Condition::Wait` from the head of its loop on. -/
def waitLoop (kernel : Kernel) (thread : Thread) (condition lock : Nat) : Kernel :=
  if kernel.isBusy condition then
    kernel.block thread (.condition condition) (.inWait condition lock)
  else { kernel with isBusy := Function.update kernel.isBusy condition true }.acquire thread lock

/-- The lock is given up by `Condition::Wait` if it belongs to the caller. -/
def releaseHeld (kernel : Kernel) (thread : Thread) (lock : Nat) : Kernel :=
  if kernel.isHeldBy lock thread then kernel.release lock else kernel

/-- `Condition::Wait`. -/
def wait (kernel : Kernel) (thread : Thread) (condition lock : Nat) : Kernel :=
  (kernel.releaseHeld thread lock).waitLoop thread condition lock

/-- `Condition::Signal`. -/
def signal (kernel : Kernel) (thread : Thread) (condition lock : Nat) : Kernel :=
  if kernel.isHeldBy lock thread then
    match kernel.queue (.condition condition) with
    | [] => kernel
    | _ :: _ => { kernel.wake (.condition condition) with
        isBusy := Function.update kernel.isBusy condition false }
  else kernel

/-- `Condition::Broadcast`, whose loop runs while the queue is empty, and then for ever. -/
def broadcast (kernel : Kernel) (thread : Thread) (condition lock : Nat) : Except Fault Kernel :=
  if kernel.isHeldBy lock thread ∧ kernel.queue (.condition condition) = [] then .error .diverges
  else .ok kernel

/-- `Barrier::Wait`. -/
def barrierWait (kernel : Kernel) (thread : Thread) (barrier : Nat) : Kernel :=
  if kernel.count barrier < kernel.size barrier then
    { kernel with count := Function.update kernel.count barrier (kernel.count barrier + 1) }.block
      thread (.barrier barrier) (.inBarrier barrier)
  else
    -- The counter is reset in the loop, which a barrier of size zero never enters.
    { kernel.wakeTimes (.barrier barrier) (kernel.size barrier) with
      count := Function.update kernel.count barrier
        (if kernel.size barrier = 0 then kernel.count barrier + 1 else 0) }

/-- The constructor of an object; the number is the initial value or the size where it has one. -/
def construct (kernel : Kernel) (object : Object) (initial : Int) : Kernel :=
  let kernel := { kernel with
    life := Function.update kernel.life object .live
    queue := Function.update kernel.queue object [] }
  match object with
  | .semaphore name => { kernel with
      -- The number is an `int`, as the value is.
      value := Function.update kernel.value name (BitVec.ofInt 32 initial) }
  | .lock id => { kernel with
      available := Function.update kernel.available id true
      owner := Function.update kernel.owner id none }
  | .mutex id => { kernel with mutexValue := Function.update kernel.mutexValue id true }
  | .condition id => { kernel with isBusy := Function.update kernel.isBusy id true }
  | .barrier id => { kernel with
      -- The size is converted to `size_t`.
      size := Function.update kernel.size id (initial % 2 ^ 64).toNat
      count := Function.update kernel.count id 0 }

/-- The destructor of an object, which drops its queue. -/
def destruct (kernel : Kernel) (object : Object) : Kernel :=
  { kernel with
    life := Function.update kernel.life object .deleted
    queue := Function.update kernel.queue object [] }

/-- `Thread::Yield`: a thread that finds nobody to run goes on itself. -/
def yield (kernel : Kernel) (thread : Thread) : Kernel :=
  match kernel.readyList with
  | [] => kernel
  | next :: rest => { { kernel with readyList := rest }.readyToRun thread with
      currentThread := some next
      status := Function.update (Function.update kernel.status thread .ready) next .running }

/-- `V` as often as asked for. -/
def vTimes (kernel : Kernel) (semaphore : SemaphoreName) : Nat → Kernel
  | 0 => kernel
  | count + 1 => (kernel.v semaphore).vTimes semaphore count

/--
The part of `Thread::Finish` that wakes those who joined and deletes their semaphore.

It signals the semaphore until the value is one. A larger value would wrap around before.
-/
def releaseJoiners (kernel : Kernel) (thread : Thread) : Except Fault Kernel :=
  match kernel.life (.semaphore (.ofThread thread)) with
  | .unborn => .ok kernel
  | .live =>
    .ok ((kernel.vTimes (.ofThread thread) (1 - kernel.value (.ofThread thread)).toNat).destruct
      (.semaphore (.ofThread thread)))
  | .deleted => .error (.wildAccess thread)

/--
`Thread::Finish`, without the call of `removeResources`.

That one leaves the tables of descriptors and handles, which no primitive looks at.
-/
def finish (kernel : Kernel) (thread : Thread) : Except Fault Kernel :=
  match kernel.releaseJoiners thread with
  | .ok kernel => .ok (kernel.sleep thread .finished)
  | .error fault => .error fault

/-- No thread has its object at an address, unless it has ended and is deleted by the next one. -/
def vacant (kernel : Kernel) (address : Nat) : Bool :=
  kernel.created.all fun other =>
    kernel.place other = .finished || kernel.address other ≠ address

/-- `new Thread` and `Thread::Fork`. -/
def fork (kernel : Kernel) (thread : Thread) : Kernel :=
  { kernel.readyToRun thread with created := thread :: kernel.created }

end Kernel

/-- A primitive that the running thread calls. -/
inductive Call where
  | p (semaphore : Nat)
  | v (semaphore : Nat)
  | acquire (lock : Nat)
  | release (lock : Nat)
  | lockMutex (mutex : Nat)
  | unlockMutex (mutex : Nat)
  | wait (condition lock : Nat)
  | signal (condition lock : Nat)
  | broadcast (condition lock : Nat)
  | barrierWait (barrier : Nat)
  deriving DecidableEq, Repr

/-- The objects whose members a primitive uses. -/
def Call.objects : Call → List Object
  | .p semaphore | .v semaphore => [.semaphore (.named semaphore)]
  | .acquire lock | .release lock => [.lock lock]
  | .lockMutex mutex | .unlockMutex mutex => [.mutex mutex]
  | .wait condition lock | .signal condition lock | .broadcast condition lock =>
    [.condition condition, .lock lock]
  | .barrierWait barrier => [.barrier barrier]

/-- Run a primitive. -/
def Kernel.perform (kernel : Kernel) (thread : Thread) : Call → Except Fault Kernel
  | .p semaphore => .ok (kernel.p thread (.named semaphore))
  | .v semaphore => .ok (kernel.v (.named semaphore))
  | .acquire lock => .ok (kernel.acquire thread lock)
  | .release lock => .ok (kernel.release lock)
  | .lockMutex mutex => .ok (kernel.lockMutex thread mutex)
  | .unlockMutex mutex => .ok (kernel.unlockMutex mutex)
  | .wait condition lock => .ok (kernel.wait thread condition lock)
  | .signal condition lock => .ok (kernel.signal thread condition lock)
  | .broadcast condition lock => kernel.broadcast thread condition lock
  | .barrierWait barrier => .ok (kernel.barrierWait thread barrier)

/-- Are all these objects there to be used? -/
def Kernel.usable (kernel : Kernel) (objects : List Object) : Bool :=
  objects.all fun object => kernel.life object = .live

/-- The objects that a thread uses when it goes on at its place. -/
def Kernel.needs (kernel : Kernel) : Place → List Object
  | .outside | .finished | .inBarrier _ => []
  | .inP semaphore => [.semaphore semaphore]
  | .inAcquire lock => [.lock lock]
  | .inLock mutex => [.mutex mutex]
  | .inWait condition lock =>
    if kernel.isBusy condition then [.condition condition]
    else [.condition condition, .lock lock]

/-- A thread that has the CPU again goes on behind the `Sleep` it was in. -/
def Kernel.resume (kernel : Kernel) (thread : Thread) : Place → Except Fault Kernel
  | .outside | .finished => .error .disabled
  | .inP semaphore => .ok (kernel.p thread semaphore)
  | .inAcquire lock => .ok (kernel.acquire thread lock)
  | .inLock mutex => .ok (kernel.lockMutex thread mutex)
  | .inWait condition lock => .ok (kernel.waitLoop thread condition lock)
  | .inBarrier _ => .ok (kernel.leave thread)

/-- What can happen next. -/
inductive Action where
  /-- The running thread calls a primitive. -/
  | call (call : Call)
  /-- The running thread goes on inside the primitive it slept in; nothing else can come before. -/
  | resume
  /-- The running thread gives up the CPU, or its time slice is over. -/
  | yield
  /-- The running thread starts another one. -/
  | fork (thread : Thread)
  /-- The running thread calls `Join` for another one. -/
  | join (thread : Thread)
  /-- The running thread ends. -/
  | finish
  /-- The running thread creates an object. -/
  | create (object : Object) (initial : Int)
  /-- The running thread deletes an object. -/
  | delete (object : Object)
  /-- The handler of a device interrupt signals a semaphore. -/
  | interrupt (semaphore : Nat)
  /-- The idle CPU finds a ready thread. -/
  | dispatch
  deriving DecidableEq, Repr

/-- The running thread, if it is outside of the primitives. -/
def Kernel.caller (kernel : Kernel) : Option Thread :=
  kernel.currentThread.filter fun thread => kernel.place thread = .outside

/-- Interrupts are enabled: the running thread is outside of the primitives, or the CPU idles. -/
def Kernel.Settled (kernel : Kernel) : Prop := kernel.currentThread = none ∨ kernel.caller ≠ none

instance (kernel : Kernel) : Decidable kernel.Settled := inferInstanceAs (Decidable (_ ∨ _))

/-- The `Join` system call; the identifier of a finished thread is no longer open. -/
def Kernel.join (kernel : Kernel) (caller thread : Thread) : Except Fault Kernel :=
  if kernel.place thread = .finished then .ok kernel
  else match kernel.life (.semaphore (.ofThread thread)) with
    | .unborn =>
      .ok ((kernel.construct (.semaphore (.ofThread thread)) 0).p caller (.ofThread thread))
    | .live => .ok (kernel.p caller (.ofThread thread))
    | .deleted => .error (.wildAccess thread)

/-- The semaphore that a thread keeps for `Join` is created and deleted by nobody else. -/
def Object.isPublic : Object → Bool
  | .semaphore (.ofThread _) => false
  | _ => true

/-- One step of the system. -/
def step (kernel : Kernel) : Action → Except Fault Kernel
  | .call call =>
    match kernel.caller with
    | none => .error .disabled
    | some thread =>
      if kernel.usable call.objects then kernel.perform thread call else .error (.wildAccess 0)
  | .resume =>
    match kernel.currentThread with
    | none => .error .disabled
    | some thread =>
      if kernel.usable (kernel.needs (kernel.place thread)) then
        kernel.resume thread (kernel.place thread)
      else .error (.wildAccess 0)
  | .yield =>
    match kernel.caller with
    | none => .error .disabled
    | some thread => .ok (kernel.yield thread)
  | .fork thread =>
    match kernel.caller with
    | none => .error .disabled
    | some _ =>
      -- The memory of a thread that has ended can be that of a new one.
      if kernel.status thread = .justCreated ∧ kernel.vacant (kernel.address thread) then
        .ok (kernel.fork thread)
      else .error .disabled
  | .join thread =>
    match kernel.caller with
    | none => .error .disabled
    | some caller =>
      if kernel.status thread = .justCreated then .error .disabled
      else kernel.join caller thread
  | .finish =>
    match kernel.caller with
    | none => .error .disabled
    | some thread => kernel.finish thread
  | .create object initial =>
    match kernel.caller with
    | none => .error .disabled
    | some _ =>
      if object.isPublic ∧ kernel.life object = .unborn then .ok (kernel.construct object initial)
      else .error .disabled
  | .delete object =>
    match kernel.caller with
    | none => .error .disabled
    | some _ =>
      if object.isPublic ∧ kernel.life object = .live then .ok (kernel.destruct object)
      else .error (.wildAccess 0)
  | .interrupt semaphore =>
    if kernel.Settled then
      if kernel.usable [.semaphore (.named semaphore)] then .ok (kernel.v (.named semaphore))
      else .error (.wildAccess 0)
    else .error .disabled
  | .dispatch =>
    if kernel.currentThread = none ∧ kernel.readyList ≠ [] then .ok kernel.dispatch
    else .error .disabled

/-- The state in which the main thread is the only one, and no object has been created. -/
structure Boot (kernel : Kernel) (main : Thread) : Prop where
  running : kernel.currentThread = some main
  nobodyReady : kernel.readyList = []
  statuses : kernel.status = Function.update (fun _ => .justCreated) main .running
  created : kernel.created = [main]
  places : kernel.place = fun _ => .outside
  noObjects : kernel.life = fun _ => .unborn
  noQueues : kernel.queue = fun _ => []

end Nachos.Threads
