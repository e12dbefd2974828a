import Nachos.Threads.SynchList

/-! Objects that belong to one module of the kernel, which nobody else names. -/

namespace Nachos.Threads

/-- A thread at this place uses an object that is owned, or will. -/
def Place.touches (owns : Object → Bool) : Place → Bool
  | .outside | .finished => false
  | .inP semaphore => owns (.semaphore semaphore)
  | .inAcquire lock => owns (.lock lock)
  | .inLock mutex => owns (.mutex mutex)
  | .inWait condition lock => owns (.condition condition) || owns (.lock lock)
  | .inBarrier barrier => owns (.barrier barrier)

/-- An action that names no object that is owned. -/
def Action.avoids (owns : Object → Bool) : Action → Bool
  | .call primitive => primitive.objects.all fun object => !owns object
  | .create object _ | .delete object => !owns object
  | .interrupt semaphore => !owns (.semaphore (.named semaphore))
  | .resume | .yield | .fork _ | .join _ | .finish | .dispatch => true

/-- The owned objects stay as they are, and only threads that are at none of them move. -/
structure Untouched (owns : Object → Bool) (kernel after : Kernel) : Prop where
  units : ∀ object, owns object = true → after.units object = kernel.units object
  queue : ∀ object, owns object = true → after.queue object = kernel.queue object
  locks : ∀ lock, owns (.lock lock) = true → after.lockState lock = kernel.lockState lock
  isBusy : ∀ condition, owns (.condition condition) = true →
    after.isBusy condition = kernel.isBusy condition
  places : ∀ thread, after.place thread = kernel.place thread ∨
    (kernel.place thread).touches owns = false ∧ (after.place thread).touches owns = false

variable {owns : Object → Bool} {kernel after : Kernel} {thread : Thread} {object : Object}
  {action : Action}

/-- What is left alone twice is left alone. -/
theorem Untouched.trans {middle : Kernel} (first : Untouched owns kernel middle)
    (second : Untouched owns middle after) : Untouched owns kernel after where
  units object owned := (second.units object owned).trans (first.units object owned)
  queue object owned := (second.queue object owned).trans (first.queue object owned)
  locks lock owned := (second.locks lock owned).trans (first.locks lock owned)
  isBusy condition owned := (second.isBusy condition owned).trans (first.isBusy condition owned)
  places thread := by
    rcases second.places thread with same | ⟨from_, to_⟩
    · rw [same]
      exact first.places thread
    · rcases first.places thread with still | ⟨before, -⟩
      · exact .inr ⟨still ▸ from_, to_⟩
      · exact .inr ⟨before, to_⟩

/-- What nobody looks at may change. -/
theorem untouched_of_eq (units : after.units = kernel.units) (queue : after.queue = kernel.queue)
    (locks : after.lockState = kernel.lockState) (isBusy : after.isBusy = kernel.isBusy)
    (place : after.place = kernel.place) : Untouched owns kernel after where
  units object _ := by rw [units]
  queue object _ := by rw [queue]
  locks lock _ := by rw [locks]
  isBusy condition _ := by rw [isBusy]
  places thread := .inl (by rw [place])

/-- An object that is not owned is another one. -/
theorem ne_of_owns {other : Object} (owned : owns object = true) (foreign : owns other = false) :
    object ≠ other := by
  rintro rfl
  exact absurd owned (by simp [foreign])

/-- Waking a thread elsewhere touches nothing. -/
theorem untouched_wake (foreign : owns object = false) :
    Untouched owns kernel (kernel.wake object) where
  units _ _ := by rw [Kernel.wake_units]
  queue other owned := by
    rw [Kernel.wake_queue, Function.update_of_ne (ne_of_owns owned foreign)]
  locks _ _ := by rw [Kernel.wake_lockState]
  isBusy _ _ := by rw [Kernel.wake_isBusy]
  places thread := .inl (by rw [(kernel.wake_frame object).2.1])

/-- Nor does going to sleep elsewhere. -/
theorem untouched_block {place : Place} (foreign : owns object = false)
    (away : (kernel.place thread).touches owns = false) (there : place.touches owns = false) :
    Untouched owns kernel (kernel.block thread object place) where
  units _ _ := by rw [Kernel.block_units]
  queue other owned := by
    rw [Kernel.block_queue, Function.update_of_ne (ne_of_owns owned foreign)]
  locks _ _ := by rw [Kernel.block_lockState]
  isBusy _ _ := by rw [Kernel.block_isBusy]
  places other := by
    by_cases same : other = thread
    · rw [same, Kernel.block_place, Function.update_self]
      exact .inr ⟨away, there⟩
    · rw [Kernel.block_place, Function.update_of_ne same]
      exact .inl rfl

/-- Nor does returning from elsewhere. -/
theorem untouched_leave (away : (kernel.place thread).touches owns = false) :
    Untouched owns kernel (kernel.leave thread) where
  units _ _ := rfl
  queue _ _ := rfl
  locks _ _ := rfl
  isBusy _ _ := rfl
  places other := by
    by_cases same : other = thread
    · rw [same]
      exact .inr ⟨away, by simp [Kernel.leave, Place.touches]⟩
    · exact .inl (Function.update_of_ne same _ _)

/-- A semaphore elsewhere may change its value. -/
theorem untouched_setValue {name : SemaphoreName} (value : BitVec 32)
    (foreign : owns (.semaphore name) = false) :
    Untouched owns kernel { kernel with value := Function.update kernel.value name value } where
  units object owned := by
    rw [Kernel.units_setValue, Function.update_of_ne (ne_of_owns owned foreign)]
  queue _ _ := rfl
  locks _ _ := rfl
  isBusy _ _ := rfl
  places _ := .inl rfl

/-- A lock elsewhere may be taken or given back. -/
theorem untouched_setLock {lock : Nat} (free : Bool) (owner : Option Thread)
    (foreign : owns (.lock lock) = false) :
    Untouched owns kernel { kernel with
      available := Function.update kernel.available lock free
      owner := Function.update kernel.owner lock owner } where
  units object owned := by
    have set := congrFun (kernel.units_setAvailable lock free) object
    rw [Function.update_of_ne (ne_of_owns owned foreign)] at set
    exact set
  queue _ _ := rfl
  locks other owned := by
    have differ : other ≠ lock := fun same => by simp [same, foreign] at owned
    simp [Kernel.lockState, Function.update_of_ne differ]
  isBusy _ _ := rfl
  places _ := .inl rfl

/-- A mutex elsewhere may be taken or given back. -/
theorem untouched_setMutex {mutex : Nat} (free : Bool) (foreign : owns (.mutex mutex) = false) :
    Untouched owns kernel { kernel with
      mutexValue := Function.update kernel.mutexValue mutex free } where
  units object owned := by
    rw [Kernel.units_setMutexValue, Function.update_of_ne (ne_of_owns owned foreign)]
  queue _ _ := rfl
  locks _ _ := rfl
  isBusy _ _ := rfl
  places _ := .inl rfl

/-- A condition elsewhere may become busy or not. -/
theorem untouched_setBusy {condition : Nat} (busy : Bool)
    (foreign : owns (.condition condition) = false) :
    Untouched owns kernel { kernel with
      isBusy := Function.update kernel.isBusy condition busy } where
  units _ _ := rfl
  queue _ _ := rfl
  locks _ _ := rfl
  isBusy other owned := by
    have differ : other ≠ condition := fun same => by simp [same, foreign] at owned
    exact Function.update_of_ne differ _ _
  places _ := .inl rfl

/-- A thread that goes for a semaphore elsewhere touches nothing. -/
theorem untouched_p {semaphore : SemaphoreName} (foreign : owns (.semaphore semaphore) = false)
    (away : (kernel.place thread).touches owns = false) :
    Untouched owns kernel (kernel.p thread semaphore) := by
  unfold Kernel.p
  split
  · exact untouched_block foreign away foreign
  · exact (untouched_leave away).trans (untouched_setValue _ foreign)

/-- Nor does giving one back. -/
theorem untouched_v {semaphore : SemaphoreName} (foreign : owns (.semaphore semaphore) = false) :
    Untouched owns kernel (kernel.v semaphore) := by
  have value : kernel.v semaphore = { kernel.wake (.semaphore semaphore) with
      value := Function.update (kernel.wake (.semaphore semaphore)).value semaphore
        (kernel.value semaphore + 1) } := by
    rw [(kernel.wake_members _).1]
    rfl
  rw [value]
  exact (untouched_wake foreign).trans (untouched_setValue _ foreign)

/-- Nor does giving one back any number of times. -/
theorem untouched_vTimes {semaphore : SemaphoreName}
    (foreign : owns (.semaphore semaphore) = false) (count : Nat) :
    Untouched owns kernel (kernel.vTimes semaphore count) := by
  induction count generalizing kernel with
  | zero => exact untouched_of_eq rfl rfl rfl rfl rfl
  | succ count ih => exact (untouched_v foreign).trans ih

/-- A thread that goes for a lock elsewhere touches nothing. -/
theorem untouched_acquire {lock : Nat} (foreign : owns (.lock lock) = false)
    (away : (kernel.place thread).touches owns = false) :
    Untouched owns kernel (kernel.acquire thread lock) := by
  unfold Kernel.acquire
  split
  · exact (untouched_leave away).trans (untouched_setLock false _ foreign)
  · exact untouched_block foreign away foreign

/-- Nor does giving one back. -/
theorem untouched_release {lock : Nat} (foreign : owns (.lock lock) = false) :
    Untouched owns kernel (kernel.release lock) := by
  have set := @untouched_setLock owns (kernel.wake (.lock lock)) lock true (kernel.owner lock)
    foreign
  have same : Function.update (kernel.wake (.lock lock)).owner lock (kernel.owner lock) =
      (kernel.wake (.lock lock)).owner := by
    have owner : (kernel.wake (.lock lock)).owner = kernel.owner :=
      funext fun other => congrArg Prod.snd (congrFun (kernel.wake_lockState (.lock lock)) other)
    rw [owner, Function.update_eq_self]
  rw [same, (kernel.wake_members _).2.1] at set
  exact (untouched_wake foreign).trans set

/-- A thread that goes for a mutex elsewhere touches nothing. -/
theorem untouched_lockMutex {mutex : Nat} (foreign : owns (.mutex mutex) = false)
    (away : (kernel.place thread).touches owns = false) :
    Untouched owns kernel (kernel.lockMutex thread mutex) := by
  unfold Kernel.lockMutex
  split
  · exact (untouched_leave away).trans (untouched_setMutex false foreign)
  · exact untouched_block foreign away foreign

/-- Nor does giving one back. -/
theorem untouched_unlockMutex {mutex : Nat} (foreign : owns (.mutex mutex) = false) :
    Untouched owns kernel (kernel.unlockMutex mutex) := by
  have set := @untouched_setMutex owns (kernel.wake (.mutex mutex)) mutex true foreign
  rw [(kernel.wake_members _).2.2] at set
  exact (untouched_wake foreign).trans set

/-- A thread that waits elsewhere touches nothing. -/
theorem untouched_waitLoop {condition lock : Nat} (noCondition : owns (.condition condition) = false)
    (noLock : owns (.lock lock) = false) (away : (kernel.place thread).touches owns = false) :
    Untouched owns kernel (kernel.waitLoop thread condition lock) := by
  unfold Kernel.waitLoop
  split
  · exact untouched_block noCondition away (by simp [Place.touches, noCondition, noLock])
  · exact (untouched_setBusy true noCondition).trans (untouched_acquire noLock away)

/-- Nor does signalling elsewhere. -/
theorem untouched_signal {condition lock : Nat} (foreign : owns (.condition condition) = false) :
    Untouched owns kernel (kernel.signal thread condition lock) := by
  unfold Kernel.signal
  split
  · split
    · exact untouched_of_eq rfl rfl rfl rfl rfl
    · have set := @untouched_setBusy owns (kernel.wake (.condition condition)) condition false
        foreign
      rw [Kernel.wake_isBusy] at set
      exact (untouched_wake foreign).trans set
  · exact untouched_of_eq rfl rfl rfl rfl rfl

/-- Nor does waking several threads elsewhere. -/
theorem untouched_wakeTimes (foreign : owns object = false) (count : Nat) :
    Untouched owns kernel (kernel.wakeTimes object count) := by
  induction count generalizing kernel with
  | zero => exact untouched_of_eq rfl rfl rfl rfl rfl
  | succ count ih => exact (untouched_wake foreign).trans ih

/-- A thread that comes to a barrier elsewhere touches nothing. -/
theorem untouched_barrierWait {barrier : Nat} (foreign : owns (.barrier barrier) = false)
    (away : (kernel.place thread).touches owns = false) :
    Untouched owns kernel (kernel.barrierWait thread barrier) := by
  unfold Kernel.barrierWait
  split
  · have there : (Place.inBarrier barrier).touches owns = false := foreign
    have counted : Untouched owns kernel { kernel with
        count := Function.update kernel.count barrier (kernel.count barrier + 1) } :=
      untouched_of_eq rfl rfl rfl rfl rfl
    exact counted.trans (untouched_block foreign away there)
  · exact (untouched_wakeTimes foreign _).trans (untouched_of_eq rfl rfl rfl rfl rfl)

/-- The primitives touch nothing but what they name. -/
theorem untouched_perform {call : Call} (avoids : (Action.call call).avoids owns = true)
    (outside : kernel.place thread = .outside)
    (performed : kernel.perform thread call = .ok after) : Untouched owns kernel after := by
  have away : (kernel.place thread).touches owns = false := by rw [outside]; rfl
  simp only [Action.avoids, List.all_eq_true, Bool.not_eq_true'] at avoids
  cases call with
  | p semaphore =>
    cases performed
    exact untouched_p (avoids _ (by simp [Call.objects])) away
  | v semaphore =>
    cases performed
    exact untouched_v (avoids _ (by simp [Call.objects]))
  | acquire lock =>
    cases performed
    exact untouched_acquire (avoids _ (by simp [Call.objects])) away
  | release lock =>
    cases performed
    exact untouched_release (avoids _ (by simp [Call.objects]))
  | lockMutex mutex =>
    cases performed
    exact untouched_lockMutex (avoids _ (by simp [Call.objects])) away
  | unlockMutex mutex =>
    cases performed
    exact untouched_unlockMutex (avoids _ (by simp [Call.objects]))
  | wait condition lock =>
    cases performed
    have noCondition := avoids (.condition condition) (by simp [Call.objects])
    have noLock := avoids (.lock lock) (by simp [Call.objects])
    have released : Untouched owns kernel (kernel.releaseHeld thread lock) := by
      unfold Kernel.releaseHeld
      split
      · exact untouched_release noLock
      · exact untouched_of_eq rfl rfl rfl rfl rfl
    refine released.trans (untouched_waitLoop noCondition noLock ?_)
    unfold Kernel.releaseHeld
    split
    · rwa [(release_members kernel lock).2.2]
    · exact away
  | signal condition lock =>
    cases performed
    exact untouched_signal (avoids _ (by simp [Call.objects]))
  | broadcast condition lock =>
    simp only [Kernel.perform, Kernel.broadcast] at performed
    split at performed
    · cases performed
    · cases performed
      exact untouched_of_eq rfl rfl rfl rfl rfl
  | barrierWait barrier =>
    cases performed
    exact untouched_barrierWait (avoids _ (by simp [Call.objects])) away

/-- A thread that goes on elsewhere touches nothing. -/
theorem untouched_resume (away : (kernel.place thread).touches owns = false)
    (resumed : kernel.resume thread (kernel.place thread) = .ok after) :
    Untouched owns kernel after := by
  cases placed : kernel.place thread with
  | outside | finished => simp [placed, Kernel.resume] at resumed
  | inP semaphore =>
    simp only [placed, Kernel.resume, Except.ok.injEq] at resumed
    have foreign : owns (.semaphore semaphore) = false := by rwa [placed] at away
    exact resumed ▸ untouched_p foreign away
  | inAcquire lock =>
    simp only [placed, Kernel.resume, Except.ok.injEq] at resumed
    have foreign : owns (.lock lock) = false := by rwa [placed] at away
    exact resumed ▸ untouched_acquire foreign away
  | inLock mutex =>
    simp only [placed, Kernel.resume, Except.ok.injEq] at resumed
    have foreign : owns (.mutex mutex) = false := by rwa [placed] at away
    exact resumed ▸ untouched_lockMutex foreign away
  | inWait condition lock =>
    simp only [placed, Kernel.resume, Except.ok.injEq] at resumed
    have foreign : owns (.condition condition) = false ∧ owns (.lock lock) = false := by
      simpa [placed, Place.touches] using away
    exact resumed ▸ untouched_waitLoop foreign.1 foreign.2 away
  | inBarrier barrier =>
    simp only [placed, Kernel.resume, Except.ok.injEq] at resumed
    exact resumed ▸ untouched_leave away

/-- A thread that ends touches nothing. -/
theorem untouched_sleep_finished (away : (kernel.place thread).touches owns = false) :
    Untouched owns kernel (kernel.sleep thread .finished) where
  units _ _ := by simp only [Kernel.sleep, Kernel.dispatch_units]; rfl
  queue _ _ := by simp [Kernel.sleep]
  locks _ _ := by simp only [Kernel.sleep, Kernel.dispatch_lockState]; rfl
  isBusy _ _ := by simp [Kernel.sleep]
  places other := by
    by_cases same : other = thread
    · rw [same]
      exact .inr ⟨away, by simp [Kernel.sleep, Place.touches]⟩
    · exact .inl (by simp [Kernel.sleep, Function.update_of_ne same])

/-- Nor does creating an object elsewhere. -/
theorem untouched_construct (foreign : owns object = false) (initial : Int) :
    Untouched owns kernel (kernel.construct object initial) where
  units other owned := by
    have differ := ne_of_owns owned foreign
    exact congrArg Gate.units (gate_construct_of_ne differ initial)
  queue other owned := by
    have differ := ne_of_owns owned foreign
    cases object <;> exact Function.update_of_ne differ _ _
  locks lock owned := Kernel.construct_lockState (ne_of_owns owned foreign).symm
  isBusy condition owned :=
    (undisturbed_construct (ne_of_owns owned foreign).symm initial).isBusy
  places _ := .inl (by rw [Kernel.construct_place])

/-- Nor does deleting one. -/
theorem untouched_destruct (foreign : owns object = false) :
    Untouched owns kernel (kernel.destruct object) where
  units _ _ := rfl
  queue _ owned := Function.update_of_ne (ne_of_owns owned foreign) _ _
  locks _ _ := rfl
  isBusy _ _ := rfl
  places _ := .inl rfl

/-- The owned objects can be named by programs. -/
def Public (owns : Object → Bool) : Prop := ∀ object, owns object = true → object.isPublic = true

/-- The semaphore that a thread keeps for `Join` is not owned. -/
theorem Public.join (isPublic : Public owns) (thread : Thread) :
    owns (.semaphore (.ofThread thread)) = false := by
  rw [← Bool.not_eq_true]
  intro owned
  exact absurd (isPublic _ owned) (by simp [Object.isPublic])

/-- An action that names no owned object touches none, unless a thread goes on at one. -/
theorem untouched_step (isPublic : Public owns) (stepped : step kernel action = .ok after)
    (avoids : action.avoids owns = true)
    (away : action = .resume → ∀ thread, kernel.currentThread = some thread →
      (kernel.place thread).touches owns = false) : Untouched owns kernel after := by
  have outside_away : ∀ thread, kernel.place thread = .outside →
      (kernel.place thread).touches owns = false := by
    intro thread outside
    rw [outside]
    rfl
  cases step_stepped stepped with
  | call current outside usable performed => exact untouched_perform avoids outside performed
  | resume current usable resumed => exact untouched_resume (away rfl _ current) resumed
  | yield current outside =>
    unfold Kernel.yield
    split <;> exact untouched_of_eq rfl rfl rfl rfl rfl
  | fork current outside new vacant => exact untouched_of_eq rfl rfl rfl rfl rfl
  | @join caller thread _ current outside forked joined =>
    unfold Kernel.join at joined
    split at joined
    · cases joined
      exact untouched_of_eq rfl rfl rfl rfl rfl
    · split at joined
      -- The first to join creates the semaphore.
      · cases joined
        refine (untouched_construct (isPublic.join thread) 0).trans
          (untouched_p (isPublic.join thread) ?_)
        exact outside_away caller outside
      · cases joined
        exact untouched_p (isPublic.join thread) (outside_away caller outside)
      · cases joined
  | @finish thread _ current outside finished =>
    rcases Kernel.finish_eq_ok.mp finished with ⟨-, rfl⟩ | ⟨-, rfl⟩
    · exact untouched_sleep_finished (outside_away thread outside)
    · have signalled : Untouched owns kernel
          ((kernel.signalJoiners thread).destruct (.semaphore (.ofThread thread))) :=
        (untouched_vTimes (isPublic.join thread) _).trans (untouched_destruct (isPublic.join thread))
      have place : (kernel.signalJoiners thread).place = kernel.place :=
        (kernel.vTimes_frame _ _).2.1
      refine signalled.trans (untouched_sleep_finished ?_)
      exact (congrFun place thread).symm ▸ outside_away thread outside
  | create current outside isPublic' unborn =>
    exact untouched_construct (by simpa [Action.avoids] using avoids) _
  | delete current outside isPublic' born =>
    exact untouched_destruct (by simpa [Action.avoids] using avoids)
  | interrupt settled born => exact untouched_v (by simpa [Action.avoids] using avoids)
  | dispatch idle ready =>
    exact ⟨by simp, by simp, by simp, by simp, fun thread => .inl (by simp)⟩

/-- What is not there cannot be named. -/
theorem avoids_of_unborn (stepped : step kernel action = .ok after)
    (unborn : ∀ object, owns object = true → after.life object = .unborn) :
    action.avoids owns = true := by
  have ages := ages_of_step stepped
  have before : ∀ object, kernel.life object = .live → owns object = false := by
    intro object live
    rw [← Bool.not_eq_true]
    intro owned
    simp [ages.unborn object (unborn object owned)] at live
  cases step_stepped stepped with
  | @call thread call _ current outside live performed =>
    simp only [Action.avoids, List.all_eq_true, Bool.not_eq_true']
    exact fun object member => before object (live object member)
  | @create thread object initial current outside isPublic fresh =>
    simp only [Action.avoids, Bool.not_eq_true']
    rw [← Bool.not_eq_true]
    intro owned
    simpa using unborn object owned
  | delete current outside isPublic live => simp [Action.avoids, before _ live]
  | interrupt settled live => simp [Action.avoids, before _ live]
  | resume | yield | fork | join | finish | dispatch => rfl

/-- Nobody has come to objects that are not there yet. -/
theorem away_of_unborn {main : Thread} {guard : Kernel → Action → Prop} {history : List Event}
    (isPublic : Public owns)
    (traced : Runs.Traced step (Boot · main) guard observe kernel history)
    (unborn : ∀ object, owns object = true → kernel.life object = .unborn) (thread : Thread) :
    (kernel.place thread).touches owns = false := by
  refine traced.invariant (fun kernel _ =>
    (∀ object, owns object = true → kernel.life object = .unborn) →
      ∀ thread, (kernel.place thread).touches owns = false) ?_ ?_ unborn thread
  · intro kernel boot _ thread
    simp [boot.places, Place.touches]
  · intro kernel action after history unused _ stepped unborn thread
    have ages := ages_of_step stepped
    have before := unused fun object owned => ages.unborn object (unborn object owned)
    have untouched := untouched_step isPublic stepped (avoids_of_unborn stepped unborn)
      fun _ thread _ => before thread
    rcases untouched.places thread with same | ⟨-, away⟩
    · rw [same]
      exact before thread
    · exact away

end Nachos.Threads
