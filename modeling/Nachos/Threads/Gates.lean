import Nachos.Threads.Events

/-! Semaphores, locks and mutexes behave like gates: units, a queue, and woken threads. -/

namespace Nachos.Threads

variable {gone : Object → Prop} {kernel after : Kernel} {thread : Thread} {object : Object}

namespace Kernel

/-- The units that a semaphore, a lock or a mutex has to give. -/
def units (kernel : Kernel) : Object → Int
  | .semaphore name => (kernel.value name).toInt
  | .lock id => if kernel.available id then 1 else 0
  | .mutex id => if kernel.mutexValue id then 1 else 0
  | .condition _ | .barrier _ => 0

end Kernel

/-- Semaphores, locks and mutexes have units to give. -/
def Object.isGate : Object → Bool
  | .semaphore _ | .lock _ | .mutex _ => true
  | .condition _ | .barrier _ => false

/-- What is left of a number of units: a value is an `int`, and a flag tells at most one. -/
def Object.store : Object → Int → Int
  | .semaphore _, units => units.bmod (2 ^ 32)
  | _, units => min 1 units

/-- An object as a gate; the woken threads are those inside its loop that are off its queue. -/
def Kernel.gate (kernel : Kernel) (object : Object) : Gate Thread where
  store := object.store
  units := kernel.units object
  queue := kernel.queue object
  woken := { thread | (kernel.place thread).object = some object ∧ thread ∉ kernel.queue object }

/-- What an event means to an object as a gate. -/
def Event.gate (object : Object) : Event → Option (Gate.Event Thread)
  | .passed at_ thread => if at_ = object then some (.passed thread) else none
  | .slept at_ thread => if at_ = object then some (.slept thread) else none
  | .raised at_ _ => if at_ = object then some .raised else none
  | _ => none

/-- The units an object was created with, if this is the event of its creation. -/
def Event.creation (object : Object) : Event → Option Int
  | .created at_ initial => if at_ = object then some initial else none
  | _ => none

namespace Kernel

@[simp] theorem dispatch_place (kernel : Kernel) : kernel.dispatch.place = kernel.place := by
  unfold dispatch
  split <;> rfl

@[simp] theorem dispatch_life (kernel : Kernel) : kernel.dispatch.life = kernel.life := by
  unfold dispatch
  split <;> rfl

@[simp] theorem dispatch_queue (kernel : Kernel) : kernel.dispatch.queue = kernel.queue := by
  unfold dispatch
  split <;> rfl

@[simp] theorem dispatch_units (kernel : Kernel) : kernel.dispatch.units = kernel.units := by
  unfold dispatch
  split <;> rfl

/-- Waking a thread does not touch the members of objects. -/
theorem wake_members (kernel : Kernel) (object : Object) :
    (kernel.wake object).value = kernel.value ∧
      (kernel.wake object).available = kernel.available ∧
        (kernel.wake object).mutexValue = kernel.mutexValue := by
  unfold wake
  split <;> exact ⟨rfl, rfl, rfl⟩

@[simp] theorem wake_units (kernel : Kernel) (object : Object) :
    (kernel.wake object).units = kernel.units := by
  unfold wake
  split <;> rfl

/-- Waking takes the first thread off the queue. -/
@[simp] theorem wake_queue (kernel : Kernel) (object : Object) :
    (kernel.wake object).queue =
      Function.update kernel.queue object (kernel.queue object).tail := by
  unfold wake
  split
  · rename_i empty
    rw [empty, List.tail_nil, ← empty, Function.update_eq_self]
  · rename_i first rest shape
    rw [shape, List.tail_cons]
    rfl

/-- A semaphore that has the same units has the same value. -/
theorem value_eq_of_units {name : SemaphoreName}
    (units : after.units (.semaphore name) = kernel.units (.semaphore name)) :
    after.value name = kernel.value name := BitVec.toInt_inj.mp units

/-- The units of a semaphore are its value. -/
theorem units_setValue (kernel : Kernel) (name : SemaphoreName) (value : BitVec 32) :
    ({ kernel with value := Function.update kernel.value name value } : Kernel).units =
      Function.update kernel.units (.semaphore name) value.toInt := by
  funext object
  by_cases same : object = .semaphore name
  · simp [same, units]
  · rw [Function.update_of_ne same]
    cases object with
    | semaphore other =>
      have differ : other ≠ name := fun equal => same (congrArg _ equal)
      simp [units, Function.update_of_ne differ]
    | _ => rfl

/-- The unit of a lock is its flag. -/
theorem units_setAvailable (kernel : Kernel) (lock : Nat) (free : Bool) :
    ({ kernel with available := Function.update kernel.available lock free } : Kernel).units =
      Function.update kernel.units (.lock lock) (if free then 1 else 0) := by
  funext object
  by_cases same : object = .lock lock
  · simp [same, units]
  · rw [Function.update_of_ne same]
    cases object with
    | lock other =>
      have differ : other ≠ lock := fun equal => same (congrArg _ equal)
      simp [units, Function.update_of_ne differ]
    | _ => rfl

/-- The unit of a mutex is its flag. -/
theorem units_setMutexValue (kernel : Kernel) (mutex : Nat) (free : Bool) :
    ({ kernel with mutexValue := Function.update kernel.mutexValue mutex free } : Kernel).units =
      Function.update kernel.units (.mutex mutex) (if free then 1 else 0) := by
  funext object
  by_cases same : object = .mutex mutex
  · simp [same, units]
  · rw [Function.update_of_ne same]
    cases object with
    | mutex other =>
      have differ : other ≠ mutex := fun equal => same (congrArg _ equal)
      simp [units, Function.update_of_ne differ]
    | _ => rfl

@[simp] theorem block_place (kernel : Kernel) (thread : Thread) (object : Object) (place : Place) :
    (kernel.block thread object place).place = Function.update kernel.place thread place := by
  simp [block, sleep]

@[simp] theorem block_life (kernel : Kernel) (thread : Thread) (object : Object) (place : Place) :
    (kernel.block thread object place).life = kernel.life := by
  simp [block, sleep]

@[simp] theorem block_queue (kernel : Kernel) (thread : Thread) (object : Object) (place : Place) :
    (kernel.block thread object place).queue =
      Function.update kernel.queue object (kernel.queue object ++ [thread]) := by
  simp [block, sleep]

@[simp] theorem block_units (kernel : Kernel) (thread : Thread) (object : Object) (place : Place) :
    (kernel.block thread object place).units = kernel.units := by
  simp only [block, sleep, dispatch_units]
  rfl

@[simp] theorem block_value (kernel : Kernel) (thread : Thread) (object : Object) (place : Place) :
    (kernel.block thread object place).value = kernel.value := by
  simp only [block, sleep, dispatch]
  split <;> rfl

end Kernel

/-- A gate stays as it is when its units, its queue and the threads in its loop do. -/
theorem gate_eq (units : after.units object = kernel.units object)
    (queue : after.queue object = kernel.queue object)
    (places : ∀ thread, (after.place thread).object = some object ↔
      (kernel.place thread).object = some object) :
    after.gate object = kernel.gate object := by
  simp only [Kernel.gate, units, queue, places]

/-- How a thread gets at an object: it sleeps if there is nothing to take, and else takes it. -/
inductive Enters (kernel : Kernel) (thread : Thread) (object : Object) (after : Kernel) : Prop
  | slept (place : Place) (nothing : kernel.units object = 0)
      (sleeps : place.object = some object)
      (result : after = kernel.block thread object place)
  | passed (something : kernel.units object ≠ 0) (queue : after.queue = kernel.queue)
      (place : after.place = Function.update kernel.place thread .outside)
      (taken : after.units = Function.update kernel.units object (kernel.gate object).less)

/-- How an object is given back: its first waiter is woken, and it has one more unit. -/
structure Raises (kernel : Kernel) (object : Object) (after : Kernel) : Prop where
  queue : after.queue = (kernel.wake object).queue
  place : after.place = kernel.place
  units : after.units = Function.update kernel.units object (kernel.gate object).more

/-- `P` takes a semaphore or sleeps. -/
theorem enters_p (kernel : Kernel) (thread : Thread) (semaphore : SemaphoreName) :
    Enters kernel thread (.semaphore semaphore) (kernel.p thread semaphore) := by
  unfold Kernel.p
  split
  · rename_i nothing
    exact .slept (.inP semaphore) (by simp [Kernel.units, nothing]) rfl rfl
  · rename_i something
    have set := kernel.units_setValue semaphore (kernel.value semaphore - 1)
    rw [BitVec.toInt_sub] at set
    refine .passed ?_ rfl rfl set
    intro nothing
    exact something (BitVec.toInt_inj.mp nothing)

/-- `Acquire` takes a lock or sleeps. -/
theorem enters_acquire (kernel : Kernel) (thread : Thread) (lock : Nat) :
    Enters kernel thread (.lock lock) (kernel.acquire thread lock) := by
  unfold Kernel.acquire
  split
  · rename_i free
    have one : kernel.units (.lock lock) = 1 := by simp [Kernel.units, free]
    have none : (kernel.gate (.lock lock)).less = 0 := by
      simp [Gate.less, Kernel.gate, Object.store, one]
    refine .passed (by simp [one]) rfl rfl ?_
    rw [none]
    exact kernel.units_setAvailable lock false
  · rename_i taken
    exact .slept (.inAcquire lock) (by simp [Kernel.units, taken]) rfl rfl

/-- A thread that goes for a lock is not on its way to a condition. -/
theorem acquire_away (kernel : Kernel) (thread : Thread) (lock condition : Nat) :
    ((kernel.acquire thread lock).place thread).object ≠ some (.condition condition) := by
  cases enters_acquire kernel thread lock with
  | slept place nothing sleeps result => simp [result, sleeps]
  | passed something queue place taken => simp [place]

/-- `Mutex::Lock` takes a mutex or sleeps. -/
theorem enters_lockMutex (kernel : Kernel) (thread : Thread) (mutex : Nat) :
    Enters kernel thread (.mutex mutex) (kernel.lockMutex thread mutex) := by
  unfold Kernel.lockMutex
  split
  · rename_i free
    have one : kernel.units (.mutex mutex) = 1 := by simp [Kernel.units, free]
    have none : (kernel.gate (.mutex mutex)).less = 0 := by
      simp [Gate.less, Kernel.gate, Object.store, one]
    refine .passed (by simp [one]) rfl rfl ?_
    rw [none]
    exact kernel.units_setMutexValue mutex false
  · rename_i taken
    exact .slept (.inLock mutex) (by simp [Kernel.units, taken]) rfl rfl

/-- `V` adds a unit. -/
theorem raises_v (kernel : Kernel) (semaphore : SemaphoreName) :
    Raises kernel (.semaphore semaphore) (kernel.v semaphore) := by
  refine ⟨rfl, (kernel.wake_frame _).2.1, ?_⟩
  have set := (kernel.wake (.semaphore semaphore)).units_setValue semaphore
    (kernel.value semaphore + 1)
  rw [(kernel.wake_members _).1, Kernel.wake_units, BitVec.toInt_add] at set
  exact set

/-- The gate of a lock has one unit after it is given back, whatever it had before. -/
theorem more_eq_one (flag : kernel.units object = 0 ∨ kernel.units object = 1)
    (flagged : object.store = min 1) : (kernel.gate object).more = 1 := by
  simp only [Gate.more, Kernel.gate, flagged]
  omega

/-- `Release` makes the lock available. -/
theorem raises_release (kernel : Kernel) (lock : Nat) :
    Raises kernel (.lock lock) (kernel.release lock) := by
  refine ⟨rfl, (kernel.wake_frame _).2.1, ?_⟩
  have flag : kernel.units (.lock lock) = 0 ∨ kernel.units (.lock lock) = 1 := by
    simp only [Kernel.units]
    split <;> simp
  have set := (kernel.wake (.lock lock)).units_setAvailable lock true
  rw [(kernel.wake_members _).2.1, Kernel.wake_units] at set
  rw [more_eq_one flag rfl]
  exact set

/-- `Unlock` makes the mutex available. -/
theorem raises_unlockMutex (kernel : Kernel) (mutex : Nat) :
    Raises kernel (.mutex mutex) (kernel.unlockMutex mutex) := by
  refine ⟨rfl, (kernel.wake_frame _).2.1, ?_⟩
  have flag : kernel.units (.mutex mutex) = 0 ∨ kernel.units (.mutex mutex) = 1 := by
    simp only [Kernel.units]
    split <;> simp
  have set := (kernel.wake (.mutex mutex)).units_setMutexValue mutex true
  rw [(kernel.wake_members _).2.2, Kernel.wake_units] at set
  rw [more_eq_one flag rfl]
  exact set

/-- The gate of an object follows what happens, and the object is not created by it. -/
structure Sees (kernel : Kernel) (events : List Event) (after : Kernel) (object : Object) :
    Prop where
  old : events.filterMap (Event.creation object) = []
  follows : (kernel.gate object).Follows (events.filterMap (Event.gate object))
    (after.gate object)

/-- What happens in two parts is seen in two parts. -/
theorem Sees.append {middle : Kernel} {earlier later : List Event}
    (first : Sees kernel earlier middle object) (second : Sees middle later after object) :
    Sees kernel (earlier ++ later) after object := by
  refine ⟨by simp [first.old, second.old], ?_⟩
  rw [List.filterMap_append]
  exact first.follows.append second.follows

/-- An event that is about no gate may be added in front. -/
theorem Sees.cons {event : Event} {events : List Event} (sees : Sees kernel events after object)
    (old : event.creation object = none) (silent : event.gate object = none) :
    Sees kernel (event :: events) after object := by
  refine ⟨?_, ?_⟩
  · rw [List.filterMap_cons_none old]
    exact sees.old
  · rw [List.filterMap_cons_none silent]
    exact sees.follows

/-- Nothing happens at an object that stays as it is. -/
theorem sees_nil (same : after.gate object = kernel.gate object) : Sees kernel [] after object :=
  ⟨rfl, Gate.follows_nil same⟩

/-- What a thread does at one object is seen there, and at no other. -/
theorem Enters.sees {other : Object} (enters : Enters kernel thread object after)
    (absent : ∀ queue, thread ∉ kernel.queue queue)
    (came : (kernel.place thread).object ≠ some object →
      (kernel.place thread).object ≠ some other) :
    Sees kernel (settle after thread object) after other := by
  refine ⟨by unfold settle; split <;> simp [Event.creation], ?_⟩
  have elsewhere : other ≠ object → (kernel.place thread).object ≠ some other := by
    intro differ
    by_cases here : (kernel.place thread).object = some object
    · simp [here, Ne.symm differ]
    · exact came here
  cases enters with
  | slept place nothing sleeps result =>
    have inside : after.place thread ≠ .outside := by
      rw [result, Kernel.block_place, Function.update_self]
      rintro rfl
      simp [Place.object] at sleeps
    simp only [settle, if_neg inside]
    by_cases same : other = object
    · subst same
      simp only [List.filterMap_cons, Event.gate, if_pos, List.filterMap_nil]
      refine Gate.follows_one ⟨nothing, absent other⟩ ?_
      simp only [result, Kernel.gate, Gate.apply, Kernel.block_units, Kernel.block_queue,
        Kernel.block_place, Function.update_self]
      congr 1
      ext waiter
      by_cases equal : waiter = thread
      · simp [equal]
      · simp [equal]
    · simp only [List.filterMap_cons, Event.gate, if_neg (Ne.symm same), List.filterMap_nil]
      refine Gate.follows_nil (gate_eq ?_ ?_ fun waiter => ?_)
      · rw [result, Kernel.block_units]
      · rw [result, Kernel.block_queue, Function.update_of_ne same]
      · by_cases equal : waiter = thread
        · subst equal
          rw [result, Kernel.block_place, Function.update_self, sleeps]
          simp [elsewhere same, Ne.symm same]
        · rw [result, Kernel.block_place, Function.update_of_ne equal]
  | passed something queue place taken =>
    have outside : after.place thread = .outside := by simp [place]
    simp only [settle, if_pos outside]
    by_cases same : other = object
    · subst same
      simp only [List.filterMap_cons, Event.gate, if_pos, List.filterMap_nil]
      refine Gate.follows_one ⟨something, absent other⟩ ?_
      simp only [Kernel.gate, Gate.apply, queue, place, taken, Function.update_self]
      congr 1
      ext waiter
      by_cases equal : waiter = thread
      · simp [equal]
      · simp [equal]
    · simp only [List.filterMap_cons, Event.gate, if_neg (Ne.symm same), List.filterMap_nil]
      refine Gate.follows_nil (gate_eq ?_ (by rw [queue]) fun waiter => ?_)
      · rw [taken, Function.update_of_ne same]
      · by_cases equal : waiter = thread
        · subst equal
          simp [place, elsewhere same]
        · rw [place, Function.update_of_ne equal]

/-- Giving one object back leaves the gates of all others alone. -/
theorem Raises.gate_of_ne {other : Object} (raises : Raises kernel object after)
    (differ : other ≠ object) : after.gate other = kernel.gate other := by
  refine gate_eq ?_ ?_ fun waiter => by rw [raises.place]
  · rw [raises.units, Function.update_of_ne differ]
  · rw [raises.queue, Kernel.wake_queue, Function.update_of_ne differ]

/-- What is given back at one object is seen there, and at no other. -/
theorem Raises.sees {other : Object} {giver : Option Thread}
    (raises : Raises kernel object after) (scheduled : Scheduled gone kernel) :
    Sees kernel [.raised object giver] after other := by
  refine ⟨by simp [Event.creation], ?_⟩
  by_cases same : other = object
  · subst same
    simp only [List.filterMap_cons, Event.gate, if_pos, List.filterMap_nil]
    refine Gate.follows_one trivial ?_
    simp only [Kernel.gate, Gate.apply, raises.queue, raises.place, raises.units,
      Kernel.wake_queue, Function.update_self]
    congr 1
    ext waiter
    have once := scheduled.queueOnce other
    have placed := fun listed => (scheduled.queued waiter other listed).2.1
    cases shape : kernel.queue other with
    | nil => simp
    | cons first rest =>
      rw [shape] at once placed
      simp only [List.tail_cons, List.mem_cons, Set.mem_ofPred_eq, Set.mem_union,
        List.head?_cons, Option.mem_def, Option.some.injEq] at placed ⊢
      have apart := (List.nodup_cons.mp once).1
      grind
  · simp only [List.filterMap_cons, Event.gate, if_neg (Ne.symm same), List.filterMap_nil]
    exact Gate.follows_nil (raises.gate_of_ne same)

/-- A thread that sleeps at something that is no gate is not seen at any gate. -/
theorem gate_block {place : Place} {other : Object} (isGate : other.isGate = true)
    (noGate : object.isGate = false) (sleeps : place.object = some object)
    (came : (kernel.place thread).object ≠ some other) :
    (kernel.block thread object place).gate other = kernel.gate other := by
  have differ : other ≠ object := by
    rintro rfl
    simp [isGate] at noGate
  refine gate_eq ?_ ?_ fun waiter => ?_
  · rw [Kernel.block_units]
  · rw [Kernel.block_queue, Function.update_of_ne differ]
  · by_cases equal : waiter = thread
    · subst equal
      simp [sleeps, came, Ne.symm differ]
    · rw [Kernel.block_place, Function.update_of_ne equal]

/-- Waking a thread at something that is no gate is not seen at any gate. -/
theorem gate_wake {other : Object} (isGate : other.isGate = true) (noGate : object.isGate = false) :
    (kernel.wake object).gate other = kernel.gate other := by
  have differ : other ≠ object := by
    rintro rfl
    simp [isGate] at noGate
  refine gate_eq (by rw [Kernel.wake_units]) ?_ fun waiter => by rw [(kernel.wake_frame object).2.1]
  rw [Kernel.wake_queue, Function.update_of_ne differ]

/-- Neither is waking several threads there. -/
theorem gate_wakeTimes {other : Object} (isGate : other.isGate = true)
    (noGate : object.isGate = false) (count : Nat) :
    (kernel.wakeTimes object count).gate other = kernel.gate other := by
  induction count generalizing kernel with
  | zero => rfl
  | succ count ih => rw [Kernel.wakeTimes, ih, gate_wake isGate noGate]

/-- The loop of `Condition::Wait` is seen at the lock when the thread goes for it. -/
theorem sees_waitLoop {condition lock : Nat} {other : Object} (isGate : other.isGate = true)
    (absent : ∀ queue, thread ∉ kernel.queue queue)
    (came : (kernel.place thread).object ≠ some other) :
    Sees kernel (settleWait (kernel.waitLoop thread condition lock) thread condition lock)
      (kernel.waitLoop thread condition lock) other := by
  unfold Kernel.waitLoop
  split
  · have there : ((kernel.block thread (.condition condition)
        (.inWait condition lock)).place thread).object = some (.condition condition) := by
      simp [Place.object]
    have differ : Object.condition condition ≠ other := by
      rintro rfl
      simp [Object.isGate] at isGate
    rw [settleWait, if_pos there]
    refine Sees.cons (sees_nil ?_) rfl (by simp [Event.gate, differ])
    exact gate_block isGate rfl rfl came
  · -- The lock is asked for in a kernel that differs in the flag of the condition only.
    have enters := enters_acquire
      { kernel with isBusy := Function.update kernel.isBusy condition true } thread lock
    rw [settleWait, if_neg (acquire_away _ thread lock condition)]
    have seen := enters.sees absent fun _ => came
    exact Sees.cons ⟨seen.old, seen.follows⟩ rfl rfl

/-- The primitives are seen at all gates as what they are. -/
theorem sees_perform {call : Call} (scheduled : Scheduled gone kernel)
    (isGate : object.isGate = true) (current : kernel.currentThread = some thread)
    (outside : kernel.place thread = .outside)
    (performed : kernel.perform thread call = .ok after) :
    Sees kernel (observeCall kernel after thread call) after object := by
  have running : kernel.status thread = .running := (scheduled.running thread).mp current
  have absent : ∀ queue, thread ∉ kernel.queue queue := scheduled.not_queued (by simp [running])
  have came : (kernel.place thread).object ≠ some object := by simp [outside]
  cases call with
  | p semaphore =>
    cases performed
    exact (enters_p kernel thread (.named semaphore)).sees absent fun _ => came
  | v semaphore =>
    cases performed
    exact (raises_v kernel (.named semaphore)).sees scheduled
  | acquire lock =>
    cases performed
    exact (enters_acquire kernel thread lock).sees absent fun _ => came
  | release lock =>
    cases performed
    exact (raises_release kernel lock).sees scheduled
  | lockMutex mutex =>
    cases performed
    exact (enters_lockMutex kernel thread mutex).sees absent fun _ => came
  | unlockMutex mutex =>
    cases performed
    exact (raises_unlockMutex kernel mutex).sees scheduled
  | wait condition lock =>
    cases performed
    simp only [observeCall, Kernel.wait, Kernel.releaseHeld]
    split
    · -- The lock is given back first, and the loop is entered from there.
      have raises := raises_release kernel lock
      refine (raises.sees scheduled).append (Sees.cons (sees_waitLoop isGate ?_ ?_) rfl rfl)
      · intro queue listed
        rw [raises.queue, Kernel.wake_queue] at listed
        by_cases same : queue = .lock lock
        · rw [same, Function.update_self] at listed
          exact absent _ (List.mem_of_mem_tail listed)
        · rw [Function.update_of_ne same] at listed
          exact absent queue listed
      · rw [raises.place]
        exact came
    · exact Sees.cons (sees_waitLoop isGate absent came) rfl rfl
  | signal condition lock =>
    cases performed
    simp only [observeCall, Kernel.signal]
    split
    · split
      · rename_i empty
        rw [empty]
        exact sees_nil rfl
      · rename_i first rest shape
        rw [shape]
        refine Sees.cons (sees_nil ?_) rfl rfl
        exact gate_wake isGate rfl
    · exact sees_nil rfl
  | broadcast condition lock =>
    simp only [Kernel.perform, Kernel.broadcast] at performed
    split at performed
    · cases performed
    · cases performed
      exact sees_nil rfl
  | barrierWait barrier =>
    cases performed
    simp only [observeCall, Kernel.barrierWait]
    split
    · refine sees_nil ?_
      exact gate_block isGate rfl rfl came
    · refine sees_nil ?_
      exact gate_wakeTimes isGate rfl (kernel.size barrier)

/-- A thread that goes on is seen at all gates as what it does. -/
theorem sees_resume (scheduled : Scheduled gone kernel) (isGate : object.isGate = true)
    (current : kernel.currentThread = some thread)
    (resumed : kernel.resume thread (kernel.place thread) = .ok after) :
    Sees kernel (observeResume after thread (kernel.place thread)) after object := by
  have running : kernel.status thread = .running := (scheduled.running thread).mp current
  have absent : ∀ queue, thread ∉ kernel.queue queue := scheduled.not_queued (by simp [running])
  cases placed : kernel.place thread with
  | outside => simp [placed, Kernel.resume] at resumed
  | finished => simp [placed, Kernel.resume] at resumed
  | inP semaphore =>
    simp only [placed, Kernel.resume, Except.ok.injEq] at resumed
    exact resumed ▸ (enters_p kernel thread semaphore).sees absent
      fun away => absurd (by simp [placed, Place.object]) away
  | inAcquire lock =>
    simp only [placed, Kernel.resume, Except.ok.injEq] at resumed
    exact resumed ▸ (enters_acquire kernel thread lock).sees absent
      fun away => absurd (by simp [placed, Place.object]) away
  | inLock mutex =>
    simp only [placed, Kernel.resume, Except.ok.injEq] at resumed
    exact resumed ▸ (enters_lockMutex kernel thread mutex).sees absent
      fun away => absurd (by simp [placed, Place.object]) away
  | inWait condition lock =>
    simp only [placed, Kernel.resume, Except.ok.injEq] at resumed
    refine resumed ▸ sees_waitLoop isGate absent ?_
    rw [placed]
    intro there
    cases there
    simp [Object.isGate] at isGate
  | inBarrier barrier =>
    simp only [placed, Kernel.resume, Except.ok.injEq] at resumed
    refine resumed ▸ sees_nil (gate_eq rfl rfl fun waiter => ?_)
    by_cases equal : waiter = thread
    · subst equal
      have differ : Object.barrier barrier ≠ object := by
        rintro rfl
        simp [Object.isGate] at isGate
      simp [Kernel.leave, placed, Place.object, differ]
    · simp [Kernel.leave, Function.update_of_ne equal]

namespace Kernel

@[simp] theorem p_life (kernel : Kernel) (thread : Thread) (semaphore : SemaphoreName) :
    (kernel.p thread semaphore).life = kernel.life := by
  unfold p
  split
  · exact kernel.block_life thread _ _
  · rfl

@[simp] theorem acquire_life (kernel : Kernel) (thread : Thread) (lock : Nat) :
    (kernel.acquire thread lock).life = kernel.life := by
  unfold acquire
  split
  · rfl
  · exact kernel.block_life thread _ _

@[simp] theorem lockMutex_life (kernel : Kernel) (thread : Thread) (mutex : Nat) :
    (kernel.lockMutex thread mutex).life = kernel.life := by
  unfold lockMutex
  split
  · rfl
  · exact kernel.block_life thread _ _

@[simp] theorem wake_life (kernel : Kernel) (object : Object) :
    (kernel.wake object).life = kernel.life := (kernel.wake_frame object).2.2

@[simp] theorem wakeTimes_life (kernel : Kernel) (object : Object) (count : Nat) :
    (kernel.wakeTimes object count).life = kernel.life := by
  induction count generalizing kernel with
  | zero => rfl
  | succ count ih => rw [wakeTimes, ih, wake_life]

@[simp] theorem waitLoop_life (kernel : Kernel) (thread : Thread) (condition lock : Nat) :
    (kernel.waitLoop thread condition lock).life = kernel.life := by
  unfold waitLoop
  split
  · exact kernel.block_life thread _ _
  · rw [acquire_life]

/-- A thread that goes for an object moves nobody else. -/
theorem place_of_enters {other : Thread} (enters : Enters kernel thread object after)
    (differ : other ≠ thread) : after.place other = kernel.place other := by
  cases enters with
  | slept place nothing sleeps result => rw [result, block_place, Function.update_of_ne differ]
  | passed something queue place taken => rw [place, Function.update_of_ne differ]

/-- A thread that goes for an object returns, or sleeps there. -/
theorem object_of_enters {other : Object} (enters : Enters kernel thread object after)
    (there : (after.place thread).object = some other) : other = object := by
  cases enters with
  | slept place nothing sleeps result =>
    rw [result, block_place, Function.update_self, sleeps, Option.some.injEq] at there
    exact there.symm
  | passed something queue place taken => simp [place] at there

/-- Waking threads moves nobody. -/
@[simp] theorem wakeTimes_place (kernel : Kernel) (object : Object) (count : Nat) :
    (kernel.wakeTimes object count).place = kernel.place := by
  induction count generalizing kernel with
  | zero => rfl
  | succ count ih => rw [wakeTimes, ih, (kernel.wake_frame object).2.1]

/-- A thread in the loop of `Condition::Wait` moves nobody else. -/
theorem waitLoop_place_of_ne {condition lock : Nat} {other : Thread} (differ : other ≠ thread) :
    (kernel.waitLoop thread condition lock).place other = kernel.place other := by
  unfold waitLoop
  split
  · rw [block_place, Function.update_of_ne differ]
  · have enters := enters_acquire
      { kernel with isBusy := Function.update kernel.isBusy condition true } thread lock
    have kept := place_of_enters enters differ
    exact kept

/-- The primitives move nobody but their caller. -/
theorem perform_place_of_ne {call : Call} {other : Thread}
    (performed : kernel.perform thread call = .ok after) (differ : other ≠ thread) :
    after.place other = kernel.place other := by
  cases call with
  | p semaphore =>
    cases performed
    exact place_of_enters (enters_p kernel thread _) differ
  | acquire lock =>
    cases performed
    exact place_of_enters (enters_acquire kernel thread lock) differ
  | lockMutex mutex =>
    cases performed
    exact place_of_enters (enters_lockMutex kernel thread mutex) differ
  | v | release | unlockMutex =>
    cases performed
    exact congrFun (kernel.wake_frame _).2.1 other
  | wait condition lock =>
    cases performed
    rw [wait, waitLoop_place_of_ne differ, releaseHeld]
    split
    · exact congrFun (kernel.wake_frame _).2.1 other
    · rfl
  | signal condition lock =>
    cases performed
    unfold signal
    split
    · split
      · rfl
      · exact congrFun (kernel.wake_frame _).2.1 other
    · rfl
  | broadcast condition lock =>
    simp only [perform, broadcast] at performed
    split at performed
    · cases performed
    · cases performed
      rfl
  | barrierWait barrier =>
    cases performed
    unfold barrierWait
    split
    · rw [block_place, Function.update_of_ne differ]
    · exact congrFun (kernel.wakeTimes_place _ _) other

/-- A thread in the loop of `Condition::Wait` sleeps at the condition or at the lock. -/
theorem object_of_waitLoop {condition lock : Nat} {other : Object}
    (there : ((kernel.waitLoop thread condition lock).place thread).object = some other) :
    other = .condition condition ∨ other = .lock lock := by
  unfold waitLoop at there
  split at there
  · rw [block_place, Function.update_self, Place.object, Option.some.injEq] at there
    exact .inl there.symm
  · exact .inr (object_of_enters (enters_acquire _ thread lock) there)

/-- A thread that calls a primitive sleeps at one of the objects it uses. -/
theorem object_of_perform {call : Call} {other : Object} (outside : kernel.place thread = .outside)
    (performed : kernel.perform thread call = .ok after)
    (there : (after.place thread).object = some other) : other ∈ call.objects := by
  have still : ∀ target, ((kernel.wake target).place thread).object ≠ some other := fun target => by
    simp [(kernel.wake_frame target).2.1, outside]
  cases call with
  | p semaphore =>
    cases performed
    simp [Call.objects, object_of_enters (enters_p kernel thread _) there]
  | acquire lock =>
    cases performed
    simp [Call.objects, object_of_enters (enters_acquire kernel thread lock) there]
  | lockMutex mutex =>
    cases performed
    simp [Call.objects, object_of_enters (enters_lockMutex kernel thread mutex) there]
  | v | release | unlockMutex =>
    cases performed
    exact (still _ there).elim
  | wait condition lock =>
    cases performed
    rcases object_of_waitLoop there with rfl | rfl <;> simp [Call.objects]
  | signal condition lock =>
    cases performed
    unfold signal at there
    split at there
    · split at there
      · simp [outside] at there
      · exact (still _ there).elim
    · simp [outside] at there
  | broadcast condition lock =>
    simp only [perform, broadcast] at performed
    split at performed
    · cases performed
    · cases performed
      simp [outside] at there
  | barrierWait barrier =>
    cases performed
    unfold barrierWait at there
    split at there
    · rw [block_place, Function.update_self, Place.object, Option.some.injEq] at there
      simp [Call.objects, there]
    · rw [wakeTimes_place, outside] at there
      cases there

/-- A thread that goes on moves nobody else. -/
theorem resume_place_of_ne {other : Thread}
    (resumed : kernel.resume thread (kernel.place thread) = .ok after) (differ : other ≠ thread) :
    after.place other = kernel.place other := by
  cases placed : kernel.place thread with
  | outside | finished => simp [placed, resume] at resumed
  | inP semaphore =>
    simp only [placed, resume, Except.ok.injEq] at resumed
    exact place_of_enters (resumed ▸ enters_p kernel thread semaphore) differ
  | inAcquire lock =>
    simp only [placed, resume, Except.ok.injEq] at resumed
    exact place_of_enters (resumed ▸ enters_acquire kernel thread lock) differ
  | inLock mutex =>
    simp only [placed, resume, Except.ok.injEq] at resumed
    exact place_of_enters (resumed ▸ enters_lockMutex kernel thread mutex) differ
  | inWait condition lock =>
    simp only [placed, resume, Except.ok.injEq] at resumed
    rw [← resumed, waitLoop_place_of_ne differ]
  | inBarrier barrier =>
    simp only [placed, resume, Except.ok.injEq] at resumed
    rw [← resumed]
    exact Function.update_of_ne differ _ _

/-- No primitive creates or deletes an object. -/
theorem perform_life {call : Call} (performed : kernel.perform thread call = .ok after) :
    after.life = kernel.life := by
  cases call with
  | p | acquire | lockMutex =>
    cases performed
    simp
  | v | release | unlockMutex =>
    cases performed
    exact kernel.wake_life _
  | wait condition lock =>
    cases performed
    rw [wait, waitLoop_life, releaseHeld]
    split
    · exact kernel.wake_life _
    · rfl
  | signal condition lock =>
    cases performed
    unfold signal
    split
    · split
      · rfl
      · exact kernel.wake_life _
    · rfl
  | broadcast condition lock =>
    simp only [perform, broadcast] at performed
    split at performed
    · cases performed
    · cases performed
      rfl
  | barrierWait barrier =>
    cases performed
    unfold barrierWait
    split
    · rw [block_life]
    · exact kernel.wakeTimes_life _ _

/-- Neither does a thread that goes on. -/
theorem resume_life (resumed : kernel.resume thread (kernel.place thread) = .ok after) :
    after.life = kernel.life := by
  cases placed : kernel.place thread <;> simp only [placed, resume, Except.ok.injEq] at resumed
  case outside | finished => cases resumed
  all_goals
    subst resumed
    simp [leave]

end Kernel

/-- Creating an object leaves the gates of all others alone. -/
theorem gate_construct_of_ne {other : Object} (differ : other ≠ object) (initial : Int) :
    (kernel.construct object initial).gate other = kernel.gate other := by
  have queue : (kernel.construct object initial).queue other = kernel.queue other := by
    cases object <;> simp [Kernel.construct, Function.update_of_ne differ]
  have place : (kernel.construct object initial).place = kernel.place := by
    cases object <;> rfl
  refine gate_eq ?_ queue fun waiter => by rw [place]
  -- Only the member that belongs to the new object is set.
  cases object with
  | semaphore name =>
    exact (congrFun (kernel.units_setValue name (BitVec.ofInt 32 initial)) other).trans
      (Function.update_of_ne differ _ _)
  | lock id =>
    exact (congrFun (kernel.units_setAvailable id true) other).trans
      (Function.update_of_ne differ _ _)
  | mutex id =>
    exact (congrFun (kernel.units_setMutexValue id true) other).trans
      (Function.update_of_ne differ _ _)
  | condition id => rfl
  | barrier id => rfl

/-- A new object is a fresh gate. -/
theorem gate_construct (scheduled : Scheduled gone kernel) (unborn : kernel.life object = .unborn)
    (isGate : object.isGate = true) (initial : Int) :
    (kernel.construct object initial).gate object =
      Gate.fresh object.store (object.initialUnits initial) := by
  have units : (kernel.construct object initial).units object = object.initialUnits initial := by
    cases object with
    | semaphore | lock | mutex => simp [Kernel.construct, Kernel.units, Object.initialUnits]
    | condition | barrier => cases isGate
  have queue : (kernel.construct object initial).queue object = [] := by
    cases object <;> simp [Kernel.construct]
  have place : (kernel.construct object initial).place = kernel.place := by
    cases object <;> rfl
  have nobody : ∀ thread, (kernel.place thread).object ≠ some object := fun thread there =>
    scheduled.born thread object there unborn
  simp only [Kernel.gate, Gate.fresh, units, queue, place]
  congr 1
  ext thread
  simp [nobody thread]

/-- A thread that ends is seen at no gate other than its own semaphore. -/
theorem gate_sleep_finished {other : Object} (outside : kernel.place thread = .outside) :
    (kernel.sleep thread .finished).gate other = kernel.gate other := by
  refine gate_eq ?_ ?_ fun waiter => ?_
  · simp only [Kernel.sleep, Kernel.dispatch_units]
    rfl
  · simp [Kernel.sleep]
  · by_cases equal : waiter = thread
    · subst equal
      simp [Kernel.sleep, outside]
    · simp [Kernel.sleep, Function.update_of_ne equal]

/-- Signalling one semaphore any number of times leaves the gates of all others alone. -/
theorem gate_vTimes_of_ne {other : Object} {semaphore : SemaphoreName}
    (differ : other ≠ .semaphore semaphore) (count : Nat) :
    (kernel.vTimes semaphore count).gate other = kernel.gate other := by
  induction count generalizing kernel with
  | zero => rfl
  | succ count ih =>
    rw [Kernel.vTimes, ih]
    exact (raises_v kernel semaphore).gate_of_ne differ

/-- Deleting one object leaves the gates of all others alone. -/
theorem gate_destruct_of_ne {other : Object} (differ : other ≠ object) :
    (kernel.destruct object).gate other = kernel.gate other :=
  gate_eq rfl (Function.update_of_ne differ _ _) fun _ => Iff.rfl

/-- Objects are created and deleted once; an abandoned one is deleted. -/
structure Ages (kernel : Kernel) (action : Action) (after : Kernel) : Prop where
  deleted : ∀ object, kernel.life object = .deleted → after.life object = .deleted
  abandoned : ∀ object, kernel.abandoned action = some object → after.life object = .deleted
  unborn : ∀ object, after.life object = .unborn → kernel.life object = .unborn

variable {action : Action}

/-- Most steps neither create nor delete objects. -/
theorem ages_of_eq (spared : kernel.abandoned action = none) (life : after.life = kernel.life) :
    Ages kernel action after :=
  ⟨by simp [life], by simp [spared], by simp [life]⟩

/-- A step may create an object that was not there. -/
theorem ages_of_live (spared : kernel.abandoned action = none)
    (unborn : kernel.life object = .unborn)
    (life : after.life = Function.update kernel.life object .live) : Ages kernel action after := by
  refine ⟨fun other deleted => ?_, by simp [spared], fun other new => ?_⟩
  · have differ : other ≠ object := by
      rintro rfl
      simp [unborn] at deleted
    rwa [life, Function.update_of_ne differ]
  · have differ : other ≠ object := by
      rintro rfl
      simp [life] at new
    rwa [life, Function.update_of_ne differ] at new

/-- A step may delete an object. -/
theorem ages_of_deleted (only : ∀ other, kernel.abandoned action = some other → other = object)
    (life : after.life = Function.update kernel.life object .deleted) :
    Ages kernel action after := by
  refine ⟨fun other deleted => ?_, fun other abandoned => ?_, fun other new => ?_⟩
  · by_cases differ : other = object
    · simp [life, differ]
    · rwa [life, Function.update_of_ne differ]
  · simp [life, only other abandoned]
  · have differ : other ≠ object := by
      rintro rfl
      simp [life] at new
    rwa [life, Function.update_of_ne differ] at new

/-- The constructor makes its object live. -/
@[simp] theorem Kernel.construct_life (kernel : Kernel) (object : Object) (initial : Int) :
    (kernel.construct object initial).life = Function.update kernel.life object .live := by
  cases object <;> rfl

/-- A thread that ends after it was joined leaves its semaphore deleted. -/
theorem life_finished (kernel : Kernel) (thread : Thread) :
    (((kernel.signalJoiners thread).destruct
      (.semaphore (.ofThread thread))).sleep thread .finished).life =
        Function.update kernel.life (.semaphore (.ofThread thread)) .deleted := by
  simp only [Kernel.sleep, Kernel.dispatch_life, Kernel.destruct]
  rw [Kernel.signalJoiners, (kernel.vTimes_frame _ _).2.2]

/-- Every step creates and deletes objects at most once. -/
theorem ages_of_step (stepped : step kernel action = .ok after) : Ages kernel action after := by
  cases step_stepped stepped with
  | call current outside live performed => exact ages_of_eq rfl (Kernel.perform_life performed)
  | resume current live resumed => exact ages_of_eq rfl (Kernel.resume_life resumed)
  | @yield thread current outside =>
    refine ages_of_eq rfl ?_
    unfold Kernel.yield
    split <;> rfl
  | fork current outside new vacant => exact ages_of_eq rfl rfl
  | @join caller thread _ current outside forked joined =>
    unfold Kernel.join at joined
    split at joined
    · cases joined
      exact ages_of_eq rfl rfl
    · split at joined
      · rename_i unborn
        cases joined
        exact ages_of_live rfl unborn (by simp)
      · cases joined
        exact ages_of_eq rfl (kernel.p_life caller _)
      · cases joined
  | @finish thread _ current outside finished =>
    rcases Kernel.finish_eq_ok.mp finished with ⟨unborn, rfl⟩ | ⟨live, rfl⟩
    · refine ages_of_eq ?_ ?_
      · simp [Kernel.abandoned, current, unborn]
      · simp [Kernel.sleep]
    · refine ages_of_deleted ?_ (life_finished kernel thread)
      simp only [Kernel.abandoned, current]
      intro other abandoned
      split at abandoned
      · exact (Option.some.inj abandoned).symm
      · cases abandoned
  | create current outside isPublic unborn => exact ages_of_live rfl unborn (by simp)
  | @delete thread object current outside isPublic live =>
    refine ages_of_deleted (fun other abandoned => ?_) rfl
    simp only [Kernel.abandoned] at abandoned
    split at abandoned
    · cases abandoned
    · exact (Option.some.inj abandoned).symm
  | @interrupt semaphore settled live => exact ages_of_eq rfl (kernel.wake_life _)
  | dispatch idle ready => exact ages_of_eq rfl kernel.dispatch_life

/-- An object comes to be by its constructor. -/
theorem eq_construct_of_born (stepped : step kernel action = .ok after)
    (isPublic : object.isPublic = true) (unborn : kernel.life object = .unborn)
    (live : after.life object = .live) :
    ∃ initial, action = .create object initial ∧ after = kernel.construct object initial := by
  cases step_stepped stepped with
  | call current outside usable performed =>
    simp [Kernel.perform_life performed, unborn] at live
  | resume current usable resumed => simp [Kernel.resume_life resumed, unborn] at live
  | @yield thread current outside =>
    have life : (kernel.yield thread).life = kernel.life := by
      unfold Kernel.yield
      split <;> rfl
    simp [life, unborn] at live
  | fork current outside new vacant => simp [Kernel.fork, Kernel.readyToRun, unborn] at live
  | @join caller thread _ current outside forked joined =>
    have differ : object ≠ .semaphore (.ofThread thread) := by
      rintro rfl
      cases isPublic
    unfold Kernel.join at joined
    split at joined
    · cases joined
      simp [unborn] at live
    · split at joined <;> cases joined <;>
        simp [unborn, Function.update_of_ne differ] at live
  | @finish thread _ current outside finished =>
    have differ : object ≠ .semaphore (.ofThread thread) := by
      rintro rfl
      cases isPublic
    rcases Kernel.finish_eq_ok.mp finished with ⟨-, rfl⟩ | ⟨-, rfl⟩
    · simp [Kernel.sleep, unborn] at live
    · rw [life_finished, Function.update_of_ne differ, unborn] at live
      cases live
  | @create thread created initial current outside named new =>
    rw [Kernel.construct_life] at live
    by_cases same : object = created
    · subst same
      exact ⟨initial, rfl, rfl⟩
    · rw [Function.update_of_ne same, unborn] at live
      cases live
  | @delete thread deleted current outside named born =>
    by_cases same : object = deleted
    · simp [Kernel.destruct, same] at live
    · simp [Kernel.destruct, Function.update_of_ne same, unborn] at live
  | interrupt settled born => simp [Kernel.v, unborn] at live
  | dispatch idle ready => simp [unborn] at live

/-- What a primitive does is about the objects it uses. -/
theorem about_of_mem_observeCall {call : Call} {event : Event}
    (member : event ∈ observeCall kernel after thread call) (about : event.about = some object) :
    object ∈ call.objects := by
  cases call with
  | p | acquire | lockMutex =>
    rw [about_of_mem_settle member, Option.some.injEq] at about
    simp [Call.objects, about]
  | v | release | unlockMutex =>
    rw [List.mem_singleton.mp member, Event.about, Option.some.injEq] at about
    simp [Call.objects, about]
  | wait condition lock =>
    rcases List.mem_append.mp member with given | later
    · split at given
      · rw [List.mem_singleton.mp given, Event.about, Option.some.injEq] at about
        simp [Call.objects, about]
      · cases given
    · rcases List.mem_cons.mp later with rfl | settled
      · cases about
      · rcases about_of_mem_settleWait settled about with rfl | rfl <;> simp [Call.objects]
  | signal condition lock =>
    simp only [observeCall] at member
    split at member
    · obtain ⟨waiter, -, rfl⟩ := List.mem_map.mp member
      cases about
    · cases member
  | broadcast | barrierWait => cases member

/-- What a thread that goes on does is about the objects it needs. -/
theorem about_of_mem_observeResume {event : Event}
    (live : ∀ object ∈ kernel.needs (kernel.place thread), kernel.life object = .live)
    (resumed : kernel.resume thread (kernel.place thread) = .ok after)
    (member : event ∈ observeResume after thread (kernel.place thread))
    (about : event.about = some object) : kernel.life object = .live := by
  cases placed : kernel.place thread with
  | outside | finished | inBarrier => simp [placed, observeResume] at member
  | inP | inAcquire | inLock =>
    rw [placed] at member live
    rw [about_of_mem_settle member, Option.some.injEq] at about
    exact live object (by simp [Kernel.needs, about])
  | inWait condition lock =>
    rw [placed] at member live resumed
    simp only [Kernel.resume, Except.ok.injEq] at resumed
    by_cases busy : kernel.isBusy condition = true
    · -- The thread goes back to sleep, and is seen at the condition only.
      have there : (after.place thread).object = some (.condition condition) := by
        simp [← resumed, Kernel.waitLoop, busy, Place.object]
      simp only [observeResume, settleWait, if_pos there, List.mem_singleton] at member
      rw [member, Event.about, Option.some.injEq] at about
      exact live object (by simp [Kernel.needs, busy, about])
    · rcases about_of_mem_settleWait member about with rfl | rfl <;>
        exact live _ (by simp [Kernel.needs, busy])

/-- Nothing happens at an object that is not there. -/
theorem born_of_mem_observe {event : Event} (stepped : step kernel action = .ok after)
    (member : event ∈ observe kernel action after) (about : event.about = some object) :
    after.life object ≠ .unborn := by
  cases step_stepped stepped with
  | call current outside live performed =>
    simp only [observe, current] at member
    rw [Kernel.perform_life performed, live object (about_of_mem_observeCall member about)]
    simp
  | resume current live resumed =>
    simp only [observe, current] at member
    rw [Kernel.resume_life resumed, about_of_mem_observeResume live resumed member about]
    simp
  | yield | fork | finish | delete | dispatch => simp [observe] at member
  | @join caller thread _ current outside forked joined =>
    simp only [observe, current, observeJoin] at member
    unfold Kernel.join at joined
    split at joined
    · rename_i finished
      simp [finished] at member
    · rename_i unfinished
      have same : object = .semaphore (.ofThread thread) := by
        rw [if_neg unfinished] at member
        rcases List.mem_append.mp member with new | settled
        · split at new
          · rw [List.mem_singleton.mp new, Event.about, Option.some.injEq] at about
            exact about.symm
          · cases new
        · rw [about_of_mem_settle settled, Option.some.injEq] at about
          exact about.symm
      split at joined
      · cases joined
        simp [same]
      · rename_i live
        cases joined
        simp [same, live]
      · cases joined
  | create current outside isPublic unborn =>
    simp only [observe, current, List.mem_singleton] at member
    rw [member, Event.about, Option.some.injEq] at about
    simp [about]
  | @interrupt semaphore settled live =>
    simp only [observe, List.mem_singleton] at member
    rw [member, Event.about, Option.some.injEq] at about
    simp [Kernel.v, ← about, live]

/-- An event about another object means nothing to a gate. -/
theorem Event.silent {event : Event} (away : event.about ≠ some object) :
    event.creation object = none ∧ event.gate object = none := by
  cases event <;> simp_all [Event.about, Event.creation, Event.gate]

/-- A gate that is there after a step was there before, or has been created. -/
theorem sees_step (scheduled : Scheduled gone kernel) (stepped : step kernel action = .ok after)
    (isGate : object.isGate = true) (live : after.life object = .live) :
    kernel.life object = .live ∧ Sees kernel (observe kernel action after) after object ∨
      kernel.life object = .unborn ∧ ∃ initial,
        (observe kernel action after).filterMap (Event.creation object) = [initial] ∧
        (Gate.fresh object.store initial).Follows
          ((observe kernel action after).filterMap (Event.gate object)) (after.gate object) := by
  cases step_stepped stepped with
  | call current outside usable performed =>
    have life := Kernel.perform_life performed
    refine .inl ⟨by rwa [← life], ?_⟩
    simp only [observe, current]
    exact sees_perform scheduled isGate current outside performed
  | resume current usable resumed =>
    have life := Kernel.resume_life resumed
    refine .inl ⟨by rwa [← life], ?_⟩
    simp only [observe, current]
    exact sees_resume scheduled isGate current resumed
  | @yield thread current outside =>
    have same : kernel.yield thread = kernel ∨ (kernel.yield thread).life = kernel.life ∧
        (kernel.yield thread).gate object = kernel.gate object := by
      unfold Kernel.yield
      split
      · exact .inl rfl
      · exact .inr ⟨rfl, rfl⟩
    rcases same with equal | ⟨life, equal⟩
    · rw [equal] at live ⊢
      exact .inl ⟨live, by simpa [observe] using sees_nil rfl⟩
    · rw [life] at live
      exact .inl ⟨live, by simpa [observe] using sees_nil equal⟩
  | fork current outside new vacant =>
    simp only [observe]
    exact .inl ⟨live, sees_nil (gate_eq rfl rfl fun _ => Iff.rfl)⟩
  | @join caller thread _ current outside forked joined =>
    simp only [observe, current, observeJoin]
    have running : kernel.status caller = .running := (scheduled.running caller).mp current
    have absent : ∀ queue, caller ∉ kernel.queue queue := scheduled.not_queued (by simp [running])
    have came : (kernel.place caller).object ≠ some object := by simp [outside]
    unfold Kernel.join at joined
    split at joined
    · rename_i finished
      cases joined
      rw [if_pos finished]
      exact .inl ⟨live, sees_nil rfl⟩
    · rename_i unfinished
      rw [if_neg unfinished]
      split at joined
      · rename_i unborn
        cases joined
        rw [if_pos unborn]
        have constructed := scheduled.construct unborn 0
        have awake : (kernel.construct (.semaphore (.ofThread thread)) 0).status caller ≠
            .blocked := by
          simpa [Kernel.construct] using by simp [running]
        have entered := (enters_p (kernel.construct (.semaphore (.ofThread thread)) 0) caller
          (.ofThread thread)).sees (constructed.not_queued awake) fun _ => came
        by_cases same : object = .semaphore (.ofThread thread)
        · -- The semaphore is fresh when the caller gets at it.
          subst same
          refine .inr ⟨unborn, 0, ?_, ?_⟩
          · simp [entered.old, Event.creation]
          · have follows := entered.follows
            rw [gate_construct scheduled unborn rfl 0] at follows
            exact follows
        · have life := live
          rw [Kernel.p_life, Kernel.construct_life, Function.update_of_ne same] at life
          refine .inl ⟨life, Sees.cons ⟨entered.old, ?_⟩ ?_ rfl⟩
          · have follows := entered.follows
            rwa [gate_construct_of_ne same 0] at follows
          · simp [Event.creation, Ne.symm same]
      · rename_i born
        cases joined
        rw [if_neg (by simp [born])]
        rw [Kernel.p_life] at live
        exact .inl ⟨live, (enters_p kernel caller (.ofThread thread)).sees absent fun _ => came⟩
      · cases joined
  | @finish thread _ current outside finished =>
    simp only [observe]
    rcases Kernel.finish_eq_ok.mp finished with ⟨unborn, rfl⟩ | ⟨born, rfl⟩
    · refine .inl ⟨by simpa [Kernel.sleep] using live, sees_nil ?_⟩
      exact gate_sleep_finished outside
    · rw [life_finished] at live
      have differ : object ≠ .semaphore (.ofThread thread) := by
        rintro rfl
        simp at live
      rw [Function.update_of_ne differ] at live
      refine .inl ⟨live, sees_nil ?_⟩
      have still : ((kernel.signalJoiners thread).destruct
          (.semaphore (.ofThread thread))).place thread = .outside := by
        rw [← outside]
        exact congrFun (kernel.vTimes_frame (.ofThread thread) _).2.1 thread
      rw [gate_sleep_finished still, gate_destruct_of_ne differ]
      exact gate_vTimes_of_ne differ _
  | @create thread created initial current outside isPublic unborn =>
    simp only [observe, current]
    by_cases same : object = created
    · subst same
      refine .inr ⟨unborn, object.initialUnits initial, by simp [Event.creation], ?_⟩
      exact Gate.follows_nil (gate_construct scheduled unborn isGate initial)
    · rw [Kernel.construct_life, Function.update_of_ne same] at live
      refine .inl ⟨live, Sees.cons (sees_nil (gate_construct_of_ne same initial)) ?_ rfl⟩
      simp [Event.creation, Ne.symm same]
  | @delete thread deleted current outside isPublic born =>
    have differ : object ≠ deleted := by
      rintro rfl
      simp [Kernel.destruct] at live
    simp only [Kernel.destruct, Function.update_of_ne differ] at live
    exact .inl ⟨live, by simpa [observe] using sees_nil (gate_destruct_of_ne differ)⟩
  | @interrupt semaphore settled born =>
    have life := (kernel.wake_life (.semaphore (.named semaphore)))
    refine .inl ⟨by rwa [← life], ?_⟩
    simp only [observe]
    exact (raises_v kernel (.named semaphore)).sees scheduled
  | dispatch idle ready =>
    rw [Kernel.dispatch_life] at live
    refine .inl ⟨live, ?_⟩
    simp only [observe]
    exact sees_nil (gate_eq (by simp) (by simp) (by simp))

/-- Going for an object does not create one. -/
theorem created_notMem_settle {initial : Int} (target : Object) :
    .created object initial ∉ settle after thread target := by
  unfold settle
  split <;> simp

/-- Neither does waiting at a condition. -/
theorem created_notMem_settleWait {initial : Int} (condition lock : Nat) :
    .created object initial ∉ settleWait after thread condition lock := by
  unfold settleWait
  split
  · simp
  · simpa using created_notMem_settle (.lock lock)

/-- No primitive creates an object. -/
theorem created_notMem_observeCall {initial : Int} (call : Call) :
    .created object initial ∉ observeCall kernel after thread call := by
  cases call with
  | p | acquire | lockMutex => exact created_notMem_settle _
  | v | release | unlockMutex | broadcast | barrierWait => simp [observeCall]
  | wait condition lock =>
    have settled : Event.created object initial ∉ settleWait after thread condition lock :=
      created_notMem_settleWait condition lock
    simp only [observeCall, List.mem_append, List.mem_cons, reduceCtorEq, settled, or_false]
    split <;> simp
  | signal condition lock =>
    simp only [observeCall]
    split <;> simp

/-- A thread that goes on does not create an object. -/
theorem created_notMem_observeResume {initial : Int} (place : Place) :
    .created object initial ∉ observeResume after thread place := by
  cases place with
  | outside | finished | inBarrier => simp [observeResume]
  | inP | inAcquire | inLock => exact created_notMem_settle _
  | inWait condition lock => exact created_notMem_settleWait condition lock

/-- Objects are created by their constructor, or by the first `Join` for a thread. -/
theorem created_cases {initial : Int} (stepped : step kernel action = .ok after)
    (created : .created object initial ∈ observe kernel action after) :
    (∃ number, action = .create object number ∧ object.isPublic = true ∧
      initial = object.initialUnits number) ∨
    ∃ thread, object = .semaphore (.ofThread thread) ∧ initial = 0 := by
  cases step_stepped stepped with
  | call current outside live performed =>
    simp only [observe, current] at created
    exact (created_notMem_observeCall _ created).elim
  | resume current live resumed =>
    simp only [observe, current] at created
    exact (created_notMem_observeResume _ created).elim
  | yield | fork | finish | delete | dispatch | interrupt => simp [observe] at created
  | @join caller thread _ current outside forked joined =>
    have settled : Event.created object initial ∉
        settle after caller (.semaphore (.ofThread thread)) := created_notMem_settle _
    simp only [observe, current, observeJoin] at created
    split at created
    · cases created
    · simp only [List.mem_append, settled, or_false] at created
      split at created
      · cases List.mem_singleton.mp created
        exact .inr ⟨thread, rfl, rfl⟩
      · cases created
  | @create thread made number current outside isPublic unborn =>
    simp only [observe, current, List.mem_singleton, Event.created.injEq] at created
    obtain ⟨rfl, rfl⟩ := created
    exact .inl ⟨number, rfl, isPublic, rfl⟩

/-- An object is created with the units that its constructor stores. -/
theorem initial_stored {initial : Int} (stepped : step kernel action = .ok after)
    (created : .created object initial ∈ observe kernel action after) :
    ∃ number, initial = object.initialUnits number := by
  rcases created_cases stepped created with ⟨number, -, -, equal⟩ | ⟨thread, rfl, rfl⟩
  · exact ⟨number, equal⟩
  · -- The semaphore for `Join` is created by the kernel itself, with zero.
    exact ⟨0, rfl⟩

/-- The kernel together with all that has happened, as the gates see it. -/
structure Simulated (kernel : Kernel) (history : List Event) : Prop where
  scheduled : Scheduled (fun object => kernel.life object = .deleted) kernel
  unborn : ∀ object, kernel.life object = .unborn →
    history.filterMap (Event.creation object) = [] ∧ history.filterMap (Event.gate object) = []
  live : ∀ object, object.isGate = true → kernel.life object = .live → ∃ initial,
    history.filterMap (Event.creation object) = [initial] ∧
      (Gate.fresh object.store initial).Follows (history.filterMap (Event.gate object))
        (kernel.gate object)
  stored : ∀ object initial, .created object initial ∈ history →
    ∃ number, initial = object.initialUnits number

/-- Every step is seen by the gates as what happens in it. -/
theorem Simulated.step {history : List Event} (simulated : Simulated kernel history)
    (stepped : step kernel action = .ok after) :
    Simulated after (history ++ observe kernel action after) := by
  have ages := ages_of_step stepped
  refine ⟨simulated.scheduled.step stepped ages.deleted ages.abandoned, ?_, ?_, ?_⟩
  · intro object unborn
    obtain ⟨never, nothing⟩ := simulated.unborn object (ages.unborn object unborn)
    have silent : ∀ event ∈ observe kernel action after,
        event.creation object = none ∧ event.gate object = none := fun event member =>
      Event.silent fun about => born_of_mem_observe stepped member about unborn
    simp only [List.filterMap_append, never, nothing, List.nil_append, List.filterMap_eq_nil_iff]
    exact ⟨fun event member => (silent event member).1, fun event member => (silent event member).2⟩
  · intro object isGate live
    rcases sees_step simulated.scheduled stepped isGate live with
      ⟨before, sees⟩ | ⟨unborn, initial, created, follows⟩
    · obtain ⟨initial, once, follows⟩ := simulated.live object isGate before
      refine ⟨initial, by simp [once, sees.old], ?_⟩
      rw [List.filterMap_append]
      exact follows.append sees.follows
    · obtain ⟨never, nothing⟩ := simulated.unborn object unborn
      refine ⟨initial, by simp [never, created], ?_⟩
      rwa [List.filterMap_append, nothing, List.nil_append]
  · intro object initial created
    rcases List.mem_append.mp created with old | new
    · exact simulated.stored object initial old
    · exact initial_stored stepped new

/-- At the start there is no gate. -/
theorem simulated_boot {main : Thread} (boot : Boot kernel main) : Simulated kernel [] := by
  refine ⟨scheduled_boot boot, fun object _ => ⟨rfl, rfl⟩, fun object _ live => ?_, by simp⟩
  simp [boot.noObjects] at live

/-- In every run, semaphores, locks and mutexes move as gates do. -/
theorem simulated_of_traced {main : Thread} {guard : Kernel → Action → Prop} {history : List Event}
    (traced : Runs.Traced Threads.step (Boot · main) guard observe kernel history) :
    Simulated kernel history := by
  refine traced.invariant Simulated (fun kernel boot => simulated_boot boot) ?_
  intro before action after history simulated _ stepped
  exact simulated.step stepped

end Nachos.Threads
