import Nachos.Threads.Conditions
import Nachos.Threads.Owners

/-! A lock and a condition that only the routines of one data structure use. -/

namespace Nachos.Threads

variable {gone : Object → Prop} {kernel after : Kernel} {thread : Thread} {object : Object}
  {lock condition : Nat} {action : Action}

/-- A thread at this place is at the lock or at the condition, or will be. -/
def Place.uses (lock condition : Nat) : Place → Bool
  | .inAcquire other => other = lock
  | .inWait at_ other => at_ = condition || other = lock
  | _ => false

/-- An action that names neither the lock nor the condition. -/
def Action.spares (lock condition : Nat) : Action → Bool
  | .call primitive => !primitive.objects.contains (.lock lock) &&
    !primitive.objects.contains (.condition condition)
  | .create object _ | .delete object => object ≠ .lock lock && object ≠ .condition condition
  | _ => true

/-- The members of the lock and of the condition stay, and nobody else comes to them. -/
structure Spared (lock condition : Nat) (kernel after : Kernel) : Prop where
  members : after.lockState lock = kernel.lockState lock
  undisturbed : Undisturbed condition kernel after
  strangers : ∀ thread, (kernel.place thread).uses lock condition = false →
    (after.place thread).uses lock condition = false

/-- A place at an object that is no lock and no condition uses neither. -/
theorem uses_of_object {place : Place} {other : Object} (there : place.object = some other)
    (noLock : other ≠ .lock lock) (noCondition : ∀ id, other ≠ .condition id) :
    place.uses lock condition = false := by
  cases place with
  | inAcquire id =>
    cases there
    simpa [Place.uses] using noLock
  | inWait id _ =>
    cases there
    exact (noCondition id rfl).elim
  | outside | finished | inP | inLock | inBarrier => rfl

/-- A thread that goes for something else comes to neither. -/
theorem Enters.strangers (enters : Enters kernel thread object after)
    (noLock : object ≠ .lock lock) (noCondition : ∀ id, object ≠ .condition id) :
    ∀ other, (kernel.place other).uses lock condition = false →
      (after.place other).uses lock condition = false := by
  intro other away
  by_cases same : other = thread
  · subst same
    cases enters with
    -- Asleep, it is at the object it went for.
    | slept place nothing sleeps result =>
      rw [result, Kernel.block_place, Function.update_self]
      exact uses_of_object sleeps noLock noCondition
    -- Otherwise it has returned.
    | passed something queue place taken =>
      rw [place, Function.update_self]
      rfl
  · rwa [Kernel.place_of_enters enters same]

/-- A thread that waits elsewhere comes to neither. -/
theorem strangers_waitLoop {at_ other : Nat} (noCondition : at_ ≠ condition)
    (noLock : other ≠ lock) :
    ∀ stranger, (kernel.place stranger).uses lock condition = false →
      ((kernel.waitLoop thread at_ other).place stranger).uses lock condition = false := by
  intro stranger away
  unfold Kernel.waitLoop
  split
  · by_cases same : stranger = thread
    · simp [same, Place.uses, noCondition, noLock]
    · simpa [Function.update_of_ne same] using away
  · refine (enters_acquire _ thread other).strangers (by simpa using noLock) (by simp) stranger ?_
    exact away

/-- The primitives that name neither leave both alone. -/
theorem spared_perform {call : Call} (spares : (Action.call call).spares lock condition = true)
    (outside : kernel.place thread = .outside)
    (performed : kernel.perform thread call = .ok after) : Spared lock condition kernel after := by
  simp only [Action.spares, Bool.and_eq_true, Bool.not_eq_true', List.contains_eq_mem,
    decide_eq_false_iff_not] at spares
  obtain ⟨noLock, noCondition⟩ := spares
  refine ⟨Kernel.perform_lockState ?_ ?_ ?_ performed,
    undisturbed_perform ?_ ?_ outside performed, ?_⟩
  · rintro rfl
    simp [Call.objects] at noLock
  · rintro rfl
    simp [Call.objects] at noLock
  · rintro id rfl
    simp [Call.objects] at noLock
  · rintro id rfl
    simp [Call.objects] at noCondition
  · rintro id rfl
    simp [Call.objects] at noCondition
  · cases call with
    | p semaphore =>
      cases performed
      exact (enters_p kernel thread _).strangers (by simp) (by simp)
    | acquire other =>
      cases performed
      refine (enters_acquire kernel thread other).strangers ?_ (by simp)
      rintro same
      simp [Call.objects, same] at noLock
    | lockMutex mutex =>
      cases performed
      exact (enters_lockMutex kernel thread mutex).strangers (by simp) (by simp)
    -- Giving something back moves nobody.
    | v semaphore =>
      cases performed
      simp [(raises_v kernel (.named semaphore)).place]
    | release other =>
      cases performed
      simp [(raises_release kernel other).place]
    | unlockMutex mutex =>
      cases performed
      simp [(raises_unlockMutex kernel mutex).place]
    | wait at_ other =>
      cases performed
      simp only [Call.objects, List.mem_cons, List.not_mem_nil, reduceCtorEq, or_false, false_or,
        Object.lock.injEq, Object.condition.injEq] at noLock noCondition
      intro stranger away
      refine strangers_waitLoop (Ne.symm noCondition) (Ne.symm noLock) stranger ?_
      unfold Kernel.releaseHeld
      split
      · rwa [(raises_release kernel other).place]
      · exact away
    | signal at_ other =>
      cases performed
      intro stranger away
      simp only [Kernel.signal]
      split
      · split
        · exact away
        · simpa [(kernel.wake_frame (.condition at_)).2.1] using away
      · exact away
    | broadcast at_ other =>
      simp only [Kernel.perform, Kernel.broadcast] at performed
      split at performed
      · cases performed
      · cases performed
        exact fun _ away => away
    | barrierWait barrier =>
      cases performed
      intro stranger away
      unfold Kernel.barrierWait
      split
      · by_cases same : stranger = thread
        · simp [same, Place.uses]
        · simpa [Function.update_of_ne same] using away
      · simpa using away

/-- A thread that goes on elsewhere leaves both alone. -/
theorem spared_resume (away : (kernel.place thread).uses lock condition = false)
    (resumed : kernel.resume thread (kernel.place thread) = .ok after) :
    Spared lock condition kernel after := by
  have noLock : (kernel.place thread).reacquires lock = false := by
    cases placed : kernel.place thread <;> simp_all [Place.uses, Place.reacquires]
  have noCondition : (kernel.place thread).object ≠ some (.condition condition) := by
    cases placed : kernel.place thread <;> simp_all [Place.uses, Place.object]
  refine ⟨Kernel.resume_lockState noLock resumed, undisturbed_resume noCondition resumed, ?_⟩
  cases placed : kernel.place thread with
  | outside | finished => simp [placed, Kernel.resume] at resumed
  | inP semaphore =>
    simp only [placed, Kernel.resume, Except.ok.injEq] at resumed
    exact resumed ▸ (enters_p kernel thread _).strangers (by simp) (by simp)
  | inAcquire other =>
    simp only [placed, Kernel.resume, Except.ok.injEq] at resumed
    refine resumed ▸ (enters_acquire kernel thread other).strangers ?_ (by simp)
    simpa [placed, Place.uses] using away
  | inLock mutex =>
    simp only [placed, Kernel.resume, Except.ok.injEq] at resumed
    exact resumed ▸ (enters_lockMutex kernel thread mutex).strangers (by simp) (by simp)
  | inWait at_ other =>
    simp only [placed, Kernel.resume, Except.ok.injEq] at resumed
    simp only [placed, Place.uses, Bool.or_eq_false_iff, decide_eq_false_iff_not] at away
    exact resumed ▸ strangers_waitLoop away.1 away.2
  | inBarrier barrier =>
    simp only [placed, Kernel.resume, Except.ok.injEq] at resumed
    intro stranger still
    by_cases same : stranger = thread
    · simp [← resumed, same, Kernel.leave, Place.uses]
    · simpa [← resumed, Kernel.leave, Function.update_of_ne same] using still

/-- What is left alone twice is left alone. -/
theorem Spared.trans {middle : Kernel} (first : Spared lock condition kernel middle)
    (second : Spared lock condition middle after) : Spared lock condition kernel after :=
  ⟨second.members.trans first.members, first.undisturbed.trans second.undisturbed,
    fun thread away => second.strangers thread (first.strangers thread away)⟩

/-- A step that moves nobody leaves both alone if it leaves their members alone. -/
theorem spared_of_place (members : after.lockState lock = kernel.lockState lock)
    (undisturbed : Undisturbed condition kernel after) (place : after.place = kernel.place) :
    Spared lock condition kernel after :=
  ⟨members, undisturbed, fun thread away => by rwa [place]⟩

/-- A thread that goes for a semaphore leaves both alone. -/
theorem spared_p (semaphore : SemaphoreName) (outside : kernel.place thread = .outside) :
    Spared lock condition kernel (kernel.p thread semaphore) :=
  ⟨by rw [Kernel.p_lockState],
    undisturbed_of_enters (enters_p kernel thread semaphore) (by simp) (by simp) (by simp [outside]),
    (enters_p kernel thread semaphore).strangers (by simp) (by simp)⟩

/-- A thread that ends leaves both alone. -/
theorem spared_sleep_finished (outside : kernel.place thread = .outside) :
    Spared lock condition kernel (kernel.sleep thread .finished) := by
  refine ⟨?_, ⟨by simp [Kernel.sleep], by simp [Kernel.sleep], fun other => ?_⟩, fun other away => ?_⟩
  · rw [Kernel.sleep, Kernel.dispatch_lockState]
    rfl
  · by_cases same : other = thread
    · simp [Kernel.sleep, same, outside]
    · simp [Kernel.sleep, Function.update_of_ne same]
  · by_cases same : other = thread
    · simp [Kernel.sleep, same, Place.uses]
    · simpa [Kernel.sleep, Function.update_of_ne same] using away

/-- An action that names neither the lock nor the condition leaves both alone. -/
theorem spared_step (stepped : step kernel action = .ok after)
    (spares : action.spares lock condition = true)
    (away : action = .resume → ∀ thread, kernel.currentThread = some thread →
      (kernel.place thread).uses lock condition = false) : Spared lock condition kernel after := by
  cases step_stepped stepped with
  | call current outside usable performed => exact spared_perform spares outside performed
  | resume current usable resumed => exact spared_resume (away rfl _ current) resumed
  | yield current outside =>
    unfold Kernel.yield
    split <;> exact spared_of_place rfl ⟨rfl, rfl, fun _ => Iff.rfl⟩ rfl
  | fork current outside new vacant => exact spared_of_place rfl ⟨rfl, rfl, fun _ => Iff.rfl⟩ rfl
  | @join caller thread _ current outside forked joined =>
    unfold Kernel.join at joined
    split at joined
    · cases joined
      exact spared_of_place rfl ⟨rfl, rfl, fun _ => Iff.rfl⟩ rfl
    · split at joined
      -- The first to join creates the semaphore.
      · cases joined
        have created : Spared lock condition kernel
            (kernel.construct (.semaphore (.ofThread thread)) 0) :=
          spared_of_place (Kernel.construct_lockState (by simp))
            (undisturbed_construct (by simp) 0) rfl
        exact created.trans (spared_p _ outside)
      · cases joined
        exact spared_p _ outside
      · cases joined
  | @finish thread _ current outside finished =>
    rcases Kernel.finish_eq_ok.mp finished with ⟨-, rfl⟩ | ⟨-, rfl⟩
    · exact spared_sleep_finished outside
    · have place : (kernel.signalJoiners thread).place = kernel.place :=
        (kernel.vTimes_frame _ _).2.1
      have signalled : Spared lock condition kernel
          ((kernel.signalJoiners thread).destruct (.semaphore (.ofThread thread))) := by
        refine spared_of_place ?_ ((undisturbed_vTimes _ _).trans (undisturbed_destruct (by simp)))
          place
        exact congrFun (kernel.vTimes_lockState (.ofThread thread) _) lock
      exact signalled.trans (spared_sleep_finished (by rw [← outside, ← place]; rfl))
  | @create thread object initial current outside isPublic unborn =>
    simp only [Action.spares, Bool.and_eq_true, decide_eq_true_eq] at spares
    exact spared_of_place (Kernel.construct_lockState spares.1)
      (undisturbed_construct spares.2 initial) (by simp)
  | @delete thread object current outside isPublic born =>
    simp only [Action.spares, Bool.and_eq_true, decide_eq_true_eq] at spares
    exact spared_of_place rfl (undisturbed_destruct spares.2) rfl
  | @interrupt semaphore settled born =>
    exact spared_of_place (by rw [Kernel.v_lockState])
      ((undisturbed_wake (.semaphore (.named semaphore)) (by simp)).trans
        ⟨rfl, rfl, fun _ => Iff.rfl⟩) (raises_v kernel _).place
  | dispatch idle ready =>
    exact spared_of_place (by rw [Kernel.dispatch_lockState]) ⟨by simp, by simp, by simp⟩ (by simp)

/-- An object that is not deleted stays. -/
theorem life_of_spares (stepped : step kernel action = .ok after) (isPublic : object.isPublic = true)
    (spared : action ≠ .delete object) (live : kernel.life object = .live) :
    after.life object = .live := by
  cases step_stepped stepped with
  | call current outside usable performed => rw [Kernel.perform_life performed, live]
  | resume current usable resumed => rw [Kernel.resume_life resumed, live]
  | yield current outside =>
    unfold Kernel.yield
    split <;> exact live
  | fork current outside new vacant => exact live
  | @join caller thread _ current outside forked joined =>
    have differ : object ≠ .semaphore (.ofThread thread) := by
      rintro rfl
      simp [Object.isPublic] at isPublic
    unfold Kernel.join at joined
    split at joined
    · cases joined
      exact live
    · split at joined
      · cases joined
        rw [Kernel.p_life, Kernel.construct_life, Function.update_of_ne differ, live]
      · cases joined
        rw [Kernel.p_life, live]
      · cases joined
  | @finish thread _ current outside finished =>
    have differ : object ≠ .semaphore (.ofThread thread) := by
      rintro rfl
      simp [Object.isPublic] at isPublic
    rcases Kernel.finish_eq_ok.mp finished with ⟨-, rfl⟩ | ⟨-, rfl⟩
    · simpa [Kernel.sleep] using live
    · rw [life_finished, Function.update_of_ne differ, live]
  | @create _ other _ current outside isPublic unborn =>
    rw [Kernel.construct_life]
    by_cases same : object = other
    · simp [same]
    · rw [Function.update_of_ne same, live]
  | @delete _ other current outside isPublic born =>
    have differ : object ≠ other := by
      rintro rfl
      exact spared rfl
    exact (Function.update_of_ne differ _ _).trans live
  | interrupt settled born => simpa [Kernel.v] using live
  | dispatch idle ready => simpa using live

/-- What is not there cannot be named. -/
theorem spares_of_unborn (stepped : step kernel action = .ok after)
    (noLock : after.life (.lock lock) = .unborn)
    (noCondition : after.life (.condition condition) = .unborn) :
    action.spares lock condition = true := by
  have ages := ages_of_step stepped
  have lockBefore := ages.unborn _ noLock
  have conditionBefore := ages.unborn _ noCondition
  cases step_stepped stepped with
  | @call thread call _ current outside live performed =>
    simp only [Action.spares, Bool.and_eq_true, Bool.not_eq_true', List.contains_eq_mem,
      decide_eq_false_iff_not]
    refine ⟨fun member => ?_, fun member => ?_⟩
    · simp [live _ member] at lockBefore
    · simp [live _ member] at conditionBefore
  | @create thread object initial current outside isPublic unborn =>
    simp only [Action.spares, Bool.and_eq_true, decide_eq_true_eq]
    refine ⟨?_, ?_⟩ <;> rintro rfl <;> simp_all
  | @delete thread object current outside isPublic live =>
    simp only [Action.spares, Bool.and_eq_true, decide_eq_true_eq]
    refine ⟨?_, ?_⟩ <;> rintro rfl <;> simp_all
  | resume | yield | fork | join | finish | interrupt | dispatch => rfl

/-- Nobody has come to a lock and a condition that are not there yet. -/
theorem strangers_of_unborn {main : Thread} {guard : Kernel → Action → Prop} {history : List Event}
    (traced : Runs.Traced step (Boot · main) guard observe kernel history)
    (noLock : kernel.life (.lock lock) = .unborn)
    (noCondition : kernel.life (.condition condition) = .unborn) (thread : Thread) :
    (kernel.place thread).uses lock condition = false := by
  refine traced.invariant (fun kernel _ => kernel.life (.lock lock) = .unborn →
    kernel.life (.condition condition) = .unborn →
      ∀ thread, (kernel.place thread).uses lock condition = false) ?_ ?_ noLock noCondition thread
  · intro kernel boot _ _ thread
    simp [boot.places, Place.uses]
  · intro kernel action after history unused _ stepped noLock noCondition thread
    have ages := ages_of_step stepped
    have before := unused (ages.unborn _ noLock) (ages.unborn _ noCondition)
    have spares := spares_of_unborn stepped noLock noCondition
    exact (spared_step stepped spares fun _ other _ => before other).strangers thread (before thread)

end Nachos.Threads
