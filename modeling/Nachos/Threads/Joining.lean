import Nachos.Threads.Semaphores

/-! What becomes of the threads that wait in `Join` when the thread they wait for ends. -/

namespace Nachos.Threads

variable {gone : Object → Prop} {kernel after : Kernel} {thread joiner : Thread} {object : Object}
  {action : Action} {history : List Event}

/-- A gate without units that nobody ever opens has nobody on the way through. -/
theorem closed_of_follows {gate closed : Gate Thread} {events : List (Gate.Event Thread)}
    (follows : closed.Follows events gate) (none : closed.units = 0) (nobody : closed.woken = ∅)
    (shut : .raised ∉ events) : gate.units = 0 ∧ gate.woken = ∅ := by
  obtain ⟨allowed, rfl⟩ := follows
  induction events generalizing closed with
  | nil => exact ⟨none, nobody⟩
  | cons event rest ih =>
    have later : Gate.Event.raised ∉ rest := fun member => shut (List.mem_cons_of_mem _ member)
    cases event with
    | passed thread => exact (allowed.1.1 none).elim
    | slept thread =>
      refine ih ?_ ?_ later allowed.2
      · exact none
      · simp [Gate.apply, nobody]
    | raised => exact (shut List.mem_cons_self).elim

/-- Is this the semaphore that a thread keeps for `Join`? -/
def Object.isJoin : Object → Bool
  | .semaphore (.ofThread _) => true
  | _ => false

/-- Nobody signals the semaphore of a thread before that thread ends. -/
theorem raised_join_notMem {giver : Option Thread} (isJoin : object.isJoin = true) :
    .raised object giver ∉ observe kernel action after := by
  intro member
  unfold observe at member
  split at member
  · rename_i call thread current
    cases call with
    | p | acquire | lockMutex =>
      simp only [observeCall, settle] at member
      split at member <;> simp at member
    | v | release | unlockMutex =>
      simp only [observeCall, List.mem_singleton, Event.raised.injEq] at member
      rw [member.1] at isJoin
      cases isJoin
    | wait condition lock =>
      simp only [observeCall, List.mem_append, List.mem_cons, reduceCtorEq, false_or] at member
      rcases member with given | settled
      · split at given
        · simp only [List.mem_singleton, Event.raised.injEq] at given
          rw [given.1] at isJoin
          cases isJoin
        · cases given
      · simp only [settleWait, settle] at settled
        split at settled
        · simp at settled
        · split at settled <;> simp at settled
    | signal condition lock =>
      simp only [observeCall] at member
      split at member
      · simp at member
      · cases member
    | broadcast | barrierWait => cases member
  · rename_i thread current
    cases placed : kernel.place thread with
    | outside | finished | inBarrier => simp [observeResume, placed] at member
    | inP | inAcquire | inLock =>
      simp only [placed, observeResume, settle] at member
      split at member <;> simp at member
    | inWait condition lock =>
      simp only [placed, observeResume, settleWait, settle] at member
      split at member
      · simp at member
      · split at member <;> simp at member
  · simp only [observeJoin, settle] at member
    split at member
    · cases member
    · rcases List.mem_append.mp member with new | settled
      · split at new <;> simp at new
      · split at settled <;> simp at settled
  · simp at member
  · simp only [List.mem_singleton, Event.raised.injEq] at member
    rw [member.1] at isJoin
    cases isJoin
  · cases member

/-- The semaphore for `Join` is created empty and not signalled while it is there. -/
structure Unsignalled (history : List Event) : Prop where
  zero : ∀ object initial, object.isJoin = true → .created object initial ∈ history → initial = 0
  never : ∀ object giver, object.isJoin = true → .raised object giver ∉ history

/-- Every step leaves it at that. -/
theorem Unsignalled.step (unsignalled : Unsignalled history)
    (stepped : step kernel action = .ok after) :
    Unsignalled (history ++ observe kernel action after) := by
  refine ⟨fun object initial isJoin member => ?_, fun object giver isJoin member => ?_⟩
  · rcases List.mem_append.mp member with old | new
    · exact unsignalled.zero object initial isJoin old
    · rcases created_cases stepped new with ⟨number, -, isPublic, -⟩ | ⟨thread, -, zero⟩
      · cases object with
        | semaphore name =>
          cases name with
          | named id => cases isJoin
          | ofThread thread => cases isPublic
        | lock | mutex | condition | barrier => cases isJoin
      · exact zero
  · rcases List.mem_append.mp member with old | new
    · exact unsignalled.never object giver isJoin old
    · exact raised_join_notMem isJoin new

/-- Those who wait for a thread that has not ended are all on the queue of its semaphore. -/
theorem queued_of_joining (simulated : Simulated kernel history) (unsignalled : Unsignalled history)
    (live : kernel.life (.semaphore (.ofThread thread)) = .live) :
    kernel.value (.ofThread thread) = 0 ∧ ∀ joiner, kernel.place joiner = .inP (.ofThread thread) →
      joiner ∈ kernel.queue (.semaphore (.ofThread thread)) := by
  obtain ⟨initial, once, follows⟩ := simulated.live _ rfl live
  have zero : initial = 0 := unsignalled.zero (.semaphore (.ofThread thread)) initial rfl
    (created_of_mem (by simp [once]))
  have shut : Gate.Event.raised ∉
      history.filterMap (Event.gate (.semaphore (.ofThread thread))) := by
    intro raised
    obtain ⟨event, listed, found⟩ := List.mem_filterMap.mp raised
    cases event with
    | raised given giver =>
      simp only [Event.gate, Option.ite_none_right_eq_some] at found
      exact unsignalled.never _ giver (by rw [found.1]; rfl) listed
    | passed | slept =>
      simp only [Event.gate, Option.ite_none_right_eq_some, Option.some.injEq, reduceCtorEq,
        and_false] at found
    | created | began | left | signalled => cases found
  obtain ⟨units, nobody⟩ := closed_of_follows follows zero rfl shut
  refine ⟨BitVec.toInt_inj.mp units, fun joiner placed => ?_⟩
  by_contra off
  have woken : joiner ∈ (kernel.gate (.semaphore (.ofThread thread))).woken :=
    ⟨by simp [placed, Place.object], off⟩
  rw [nobody] at woken
  exact woken

/-- A thread only ends when nobody waits for it in `Join`. -/
def Kernel.finishesAlone (kernel : Kernel) : Action → Prop
  | .finish => ∀ thread ∈ kernel.currentThread,
    kernel.queue (.semaphore (.ofThread thread)) = []
  | _ => True

/-- Those who waited for a thread run again, and none goes on inside of the deleted semaphore. -/
structure JoinersReleased (kernel after : Kernel) (thread : Thread) : Prop where
  ready : ∀ joiner ∈ kernel.queue (.semaphore (.ofThread thread)),
    joiner ∈ after.readyList ∨ after.currentThread = some joiner
  untouched : ∀ joiner, after.place joiner = .inP (.ofThread thread) →
    after.life (.semaphore (.ofThread thread)) = .live

/-- A thread gets into the loop of such a semaphore by `Join`, while the other one runs. -/
theorem joining_cases (stepped : step kernel action = .ok after)
    (placed : after.place joiner = .inP (.ofThread thread)) :
    kernel.place joiner = .inP (.ofThread thread) ∨
      action = .join thread ∧ kernel.place thread ≠ .finished := by
  have there : (after.place joiner).object = some (.semaphore (.ofThread thread)) := by
    simp [placed, Place.object]
  cases step_stepped stepped with
  | @call caller call _ current outside usable performed =>
    by_cases same : joiner = caller
    · subst same
      have used := Kernel.object_of_perform outside performed there
      cases call <;> simp [Call.objects] at used
    · rw [Kernel.perform_place_of_ne performed same] at placed
      exact .inl placed
  | @resume running _ current usable resumed =>
    by_cases same : joiner = running
    · subst same
      left
      cases at_ : kernel.place joiner with
      | outside | finished => simp [at_, Kernel.resume] at resumed
      | inP semaphore =>
        simp only [at_, Kernel.resume, Except.ok.injEq] at resumed
        have used := Kernel.object_of_enters (resumed ▸ enters_p kernel joiner semaphore) there
        rw [Object.semaphore.injEq] at used
        rw [used]
      | inAcquire lock =>
        simp only [at_, Kernel.resume, Except.ok.injEq] at resumed
        cases Kernel.object_of_enters (resumed ▸ enters_acquire kernel joiner lock) there
      | inLock mutex =>
        simp only [at_, Kernel.resume, Except.ok.injEq] at resumed
        cases Kernel.object_of_enters (resumed ▸ enters_lockMutex kernel joiner mutex) there
      | inWait condition lock =>
        simp only [at_, Kernel.resume, Except.ok.injEq] at resumed
        rw [← resumed] at there
        rcases Kernel.object_of_waitLoop there with used | used <;> cases used
      | inBarrier barrier =>
        simp only [at_, Kernel.resume, Except.ok.injEq] at resumed
        simp [← resumed, Kernel.leave] at placed
    · rw [Kernel.resume_place_of_ne resumed same] at placed
      exact .inl placed
  | yield current outside =>
    left
    unfold Kernel.yield at placed
    split at placed <;> exact placed
  | fork current outside new vacant => exact .inl placed
  | @join caller target _ current outside forked joined =>
    unfold Kernel.join at joined
    split at joined
    · cases joined
      exact .inl placed
    · rename_i unfinished
      by_cases same : joiner = caller
      · subst same
        have reached : Object.semaphore (.ofThread thread) = .semaphore (.ofThread target) := by
          split at joined
          · cases joined
            exact Kernel.object_of_enters (enters_p _ joiner _) there
          · cases joined
            exact Kernel.object_of_enters (enters_p kernel joiner _) there
          · cases joined
        cases reached
        exact .inr ⟨rfl, unfinished⟩
      · left
        split at joined
        · cases joined
          rwa [Kernel.place_of_enters (enters_p _ caller _) same] at placed
        · cases joined
          rwa [Kernel.place_of_enters (enters_p kernel caller _) same] at placed
        · cases joined
  | @finish ending _ current outside finished =>
    left
    have moved : ∀ base : Kernel, base.place = kernel.place →
        (base.sleep ending .finished).place joiner = .inP (.ofThread thread) →
          kernel.place joiner = .inP (.ofThread thread) := by
      intro base same slept
      by_cases equal : joiner = ending
      · simp [Kernel.sleep, equal] at slept
      · simpa [Kernel.sleep, Function.update_of_ne equal, same] using slept
    rcases Kernel.finish_eq_ok.mp finished with ⟨-, rfl⟩ | ⟨-, rfl⟩
    · exact moved kernel rfl placed
    · refine moved _ ?_ placed
      exact (kernel.vTimes_frame (.ofThread ending) _).2.1
  | @create caller object initial current outside isPublic unborn =>
    left
    cases object <;> exact placed
  | delete current outside isPublic live => exact .inl placed
  | @interrupt semaphore settled live =>
    rw [← (kernel.wake_frame (.semaphore (.named semaphore))).2.1]
    exact .inl placed
  | dispatch idle ready =>
    rw [Kernel.dispatch_place] at placed
    exact .inl placed

/-- What is kept along runs in which threads end alone. -/
structure Joined (kernel : Kernel) (history : List Event) : Prop where
  simulated : Simulated kernel history
  unsignalled : Unsignalled history
  untouched : ∀ thread joiner, kernel.place joiner = .inP (.ofThread thread) →
    kernel.life (.semaphore (.ofThread thread)) = .live

/-- The semaphore for `Join` is deleted when its thread ends, and stays until then. -/
theorem join_kept (stepped : step kernel action = .ok after)
    (live : kernel.life (.semaphore (.ofThread thread)) = .live)
    (runs : ¬ (action = .finish ∧ kernel.currentThread = some thread)) :
    after.life (.semaphore (.ofThread thread)) = .live := by
  cases step_stepped stepped with
  | call current outside usable performed => rwa [Kernel.perform_life performed]
  | resume current usable resumed => rwa [Kernel.resume_life resumed]
  | yield current outside =>
    unfold Kernel.yield
    split <;> exact live
  | fork current outside new vacant => exact live
  | join current outside forked joined =>
    unfold Kernel.join at joined
    split at joined
    · cases joined
      exact live
    · split at joined
      · cases joined
        rw [Kernel.p_life, Kernel.construct_life, Function.update_apply]
        split
        · rfl
        · exact live
      · cases joined
        rwa [Kernel.p_life]
      · cases joined
  | @finish ending _ current outside finished =>
    have differ : Object.semaphore (.ofThread thread) ≠ .semaphore (.ofThread ending) := by
      intro same
      cases same
      exact runs ⟨rfl, current⟩
    rcases Kernel.finish_eq_ok.mp finished with ⟨-, rfl⟩ | ⟨-, rfl⟩
    · simpa [Kernel.sleep] using live
    · rwa [life_finished, Function.update_of_ne differ]
  | @create caller object initial current outside isPublic unborn =>
    rw [Kernel.construct_life, Function.update_apply]
    split
    · rfl
    · exact live
  | @delete caller object current outside isPublic born =>
    have differ : Object.semaphore (.ofThread thread) ≠ object := by
      rintro rfl
      cases isPublic
    simpa [Kernel.destruct, Function.update_of_ne differ] using live
  | interrupt settled born => simpa [Kernel.v] using live
  | dispatch idle ready => simpa using live

/-- A thread that joined another one has its semaphore to wait at. -/
theorem join_live (stepped : step kernel (.join thread) = .ok after)
    (running : kernel.place thread ≠ .finished) :
    after.life (.semaphore (.ofThread thread)) = .live := by
  cases step_stepped stepped with
  | join current outside forked joined =>
    unfold Kernel.join at joined
    rw [if_neg running] at joined
    split at joined
    · cases joined
      simp
    · rename_i live
      cases joined
      rwa [Kernel.p_life]
    · cases joined

/-- A step by which no thread ends while others wait for it. -/
theorem Joined.step (joined : Joined kernel history) (alone : kernel.finishesAlone action)
    (stepped : step kernel action = .ok after) :
    Joined after (history ++ observe kernel action after) := by
  refine ⟨joined.simulated.step stepped, joined.unsignalled.step stepped,
    fun thread joiner placed => ?_⟩
  rcases joining_cases stepped placed with old | ⟨rfl, running⟩
  · have live := joined.untouched thread joiner old
    refine join_kept stepped live ?_
    rintro ⟨rfl, current⟩
    have listed := (queued_of_joining joined.simulated joined.unsignalled live).2 joiner old
    rw [alone thread current] at listed
    cases listed
  · exact join_live stepped running

/-- If nobody waits for a thread that ends, nobody is left behind. -/
theorem released_of_alone (joined : Joined kernel history)
    (current : kernel.currentThread = some thread) (stepped : step kernel .finish = .ok after)
    (nobody : kernel.queue (.semaphore (.ofThread thread)) = []) :
    JoinersReleased kernel after thread := by
  have alone : kernel.finishesAlone .finish := by
    intro ending member
    rw [current, Option.mem_def, Option.some.injEq] at member
    rwa [← member]
  refine ⟨by simp [nobody], fun joiner placed => ?_⟩
  exact (joined.step alone stepped).untouched thread joiner placed

/-- Whoever waits for a thread that ends goes on inside of a deleted semaphore. -/
theorem not_released_of_waiters (joined : Joined kernel history)
    (current : kernel.currentThread = some thread) (stepped : step kernel .finish = .ok after)
    (waiters : kernel.queue (.semaphore (.ofThread thread)) ≠ []) :
    ¬ JoinersReleased kernel after thread := by
  intro released
  obtain ⟨joiner, listed⟩ := List.exists_mem_of_ne_nil _ waiters
  obtain ⟨blocked, there, live⟩ := joined.simulated.scheduled.queued joiner _ listed
  have placed : kernel.place joiner = .inP (.ofThread thread) := by
    cases at_ : kernel.place joiner with
    | inP semaphore =>
      simp only [at_, Place.object, Option.some.injEq, Object.semaphore.injEq] at there
      rw [there]
    | _ => simp [at_, Place.object] at there
  have differ : joiner ≠ thread := by
    rintro rfl
    rw [(joined.simulated.scheduled.running joiner).mp current] at blocked
    cases blocked
  cases step_stepped stepped with
  | @finish ending _ also outside finished =>
    rw [current, Option.some.injEq] at also
    subst also
    rcases Kernel.finish_eq_ok.mp finished with ⟨unborn, rfl⟩ | ⟨-, rfl⟩
    · simp [live] at unborn
    · have still := released.untouched joiner (by
        simp only [Kernel.sleep, Kernel.dispatch_place, Function.update_of_ne differ]
        rw [← placed]
        exact congrFun (kernel.vTimes_frame (.ofThread thread) _).2.1 joiner)
      rw [life_finished, Function.update_self] at still
      cases still

/--
In every run in which threads end only while nobody waits for them, no thread is ever inside of a
semaphore for `Join` that has been deleted; and when a thread ends, those who waited for it are
released exactly if there were none.
-/
theorem joiners_released_iff {main : Thread}
    (traced : Runs.Traced step (Boot · main) (fun kernel action => kernel.finishesAlone action)
      observe kernel history) :
    (∀ thread joiner, kernel.place joiner = .inP (.ofThread thread) →
      kernel.life (.semaphore (.ofThread thread)) = .live) ∧
    ∀ thread after, kernel.currentThread = some thread → step kernel .finish = .ok after →
      (JoinersReleased kernel after thread ↔
        kernel.queue (.semaphore (.ofThread thread)) = []) := by
  have joined : Joined kernel history := by
    refine traced.invariant Joined ?_ ?_
    · intro kernel boot
      refine ⟨?_, ⟨by simp, by simp⟩, by simp [boot.places]⟩
      exact simulated_of_traced (.start boot : Runs.Traced _ (Boot · main) (fun _ _ => True) _ _ _)
    · intro before action after history joined alone stepped
      exact joined.step alone stepped
  refine ⟨joined.untouched, fun thread after current stepped => ⟨fun released => ?_, ?_⟩⟩
  · by_contra waiters
    exact not_released_of_waiters joined current stepped waiters released
  · exact released_of_alone joined current stepped

instance (kernel : Kernel) (action : Action) : Decidable (kernel.finishesAlone action) :=
  match action with
  | .finish =>
    match current : kernel.currentThread with
    | none => .isTrue (by simp [Kernel.finishesAlone, current])
    | some thread => decidable_of_iff (kernel.queue (.semaphore (.ofThread thread)) = [])
        (by simp [Kernel.finishesAlone, current])
  | .call _ | .resume | .yield | .fork _ | .join _ | .create _ _ | .delete _ | .interrupt _
  | .dispatch => .isTrue trivial

/-- The main thread starts another one, which gets the CPU. -/
def forkAndYield : List Action := [.fork 1, .yield]

/-- That one may end. -/
theorem joiners_released_forkAndYield :
    ∃ kernel after, Runs.run step firstKernel forkAndYield = .ok kernel ∧
      step kernel .finish = .ok after ∧ JoinersReleased kernel after 1 := by
  obtain ⟨kernel, ran, checked⟩ := Runs.exists_of_runsTo
    (show Runs.runsTo step firstKernel forkAndYield (fun kernel =>
      kernel.currentThread = some 1 ∧ kernel.queue (.semaphore (.ofThread 1)) = [] ∧
        (step kernel .finish).isOk = true) = true by decide +kernel)
  simp only [decide_eq_true_eq] at checked
  obtain ⟨current, nobody, finishes⟩ := checked
  have traced : Runs.Traced step (Boot · 0) (fun kernel action => kernel.finishesAlone action)
      observe kernel ([] ++ Runs.record step observe firstKernel forkAndYield) :=
    Runs.Traced.extend (.start boot_firstKernel) (by decide +kernel) ran
  cases finished : step kernel .finish with
  | error fault => simp [finished, Except.isOk, Except.toBool] at finishes
  | ok after =>
    exact ⟨kernel, after, ran, finished,
      ((joiners_released_iff traced).2 1 after current finished).mpr nobody⟩

/-- Two threads wait for a third one, which then ends. -/
def joinTwice : List Action := [.fork 1, .fork 2, .join 1, .yield, .join 1, .finish]

/-- One of them is asleep for ever, and the other one uses a semaphore that is gone. -/
theorem not_released_joinTwice :
    ∃ kernel, Runs.run step firstKernel joinTwice = .ok kernel ∧ kernel.place 1 = .finished ∧
      kernel.currentThread = some 0 ∧ kernel.place 0 = .inP (.ofThread 1) ∧
      kernel.life (.semaphore (.ofThread 1)) = .deleted ∧
      step kernel .resume = .error (.wildAccess 0) ∧
      kernel.status 2 = .blocked ∧ ∀ object, 2 ∉ kernel.queue object := by
  obtain ⟨kernel, ran, checked⟩ := Runs.exists_of_runsTo
    (show Runs.runsTo step firstKernel joinTwice (fun kernel =>
      kernel.place 1 = .finished ∧ kernel.currentThread = some 0 ∧
        kernel.place 0 = .inP (.ofThread 1) ∧ kernel.life (.semaphore (.ofThread 1)) = .deleted ∧
          kernel.status 2 = .blocked ∧ kernel.place 2 = .inP (.ofThread 1)) = true
      by decide +kernel)
  simp only [decide_eq_true_eq] at checked
  obtain ⟨ended, current, inside, deleted, blocked, asleep⟩ := checked
  have traced : Runs.Traced step (Boot · 0) (fun _ _ => True) observe kernel
      ([] ++ Runs.record step observe firstKernel joinTwice) :=
    Runs.Traced.extend (.start boot_firstKernel)
      (Runs.guarded_of_forall (fun _ _ _ => trivial) _) ran
  refine ⟨kernel, ran, ended, current, inside, deleted, ?_, blocked, fun object listed => ?_⟩
  · simp [step, current, inside, Kernel.needs, Kernel.usable, deleted]
  · obtain ⟨-, there, live⟩ := (simulated_of_traced traced).scheduled.queued 2 object listed
    rw [asleep, Place.object, Option.some.injEq] at there
    rw [← there, deleted] at live
    cases live

end Nachos.Threads
