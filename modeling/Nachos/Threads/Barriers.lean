import Nachos.Threads.Private

/-! `Barrier`: in which rounds threads meet at it, and whom the last one of a round releases. -/

namespace Nachos.Threads

/-- `Barrier::size` and `Barrier::count`. -/
def Kernel.barrierState (kernel : Kernel) (barrier : Nat) : Nat × Nat :=
  (kernel.size barrier, kernel.count barrier)

variable {gone : Object → Prop} {kernel after : Kernel} {thread : Thread} {barrier : Nat}
  {object : Object} {action : Action}

namespace Kernel

@[simp] theorem dispatch_barrierState (kernel : Kernel) :
    kernel.dispatch.barrierState = kernel.barrierState := by
  unfold dispatch
  split <;> rfl

@[simp] theorem wake_barrierState (kernel : Kernel) (object : Object) :
    (kernel.wake object).barrierState = kernel.barrierState := by
  unfold wake
  split <;> rfl

@[simp] theorem block_barrierState (kernel : Kernel) (thread : Thread) (object : Object)
    (place : Place) : (kernel.block thread object place).barrierState = kernel.barrierState := by
  rw [block, sleep, dispatch_barrierState]
  rfl

@[simp] theorem p_barrierState (kernel : Kernel) (thread : Thread) (semaphore : SemaphoreName) :
    (kernel.p thread semaphore).barrierState = kernel.barrierState := by
  unfold p
  split
  · rw [block_barrierState]
  · rfl

@[simp] theorem v_barrierState (kernel : Kernel) (semaphore : SemaphoreName) :
    (kernel.v semaphore).barrierState = kernel.barrierState :=
  kernel.wake_barrierState (.semaphore semaphore)

@[simp] theorem vTimes_barrierState (kernel : Kernel) (semaphore : SemaphoreName) (count : Nat) :
    (kernel.vTimes semaphore count).barrierState = kernel.barrierState := by
  induction count generalizing kernel with
  | zero => rfl
  | succ count ih => rw [vTimes, ih, v_barrierState]

@[simp] theorem wakeTimes_barrierState (kernel : Kernel) (object : Object) (count : Nat) :
    (kernel.wakeTimes object count).barrierState = kernel.barrierState := by
  induction count generalizing kernel with
  | zero => rfl
  | succ count ih => rw [wakeTimes, ih, wake_barrierState]

@[simp] theorem acquire_barrierState (kernel : Kernel) (thread : Thread) (lock : Nat) :
    (kernel.acquire thread lock).barrierState = kernel.barrierState := by
  unfold acquire
  split
  · rfl
  · rw [block_barrierState]

@[simp] theorem release_barrierState (kernel : Kernel) (lock : Nat) :
    (kernel.release lock).barrierState = kernel.barrierState :=
  kernel.wake_barrierState (.lock lock)

@[simp] theorem waitLoop_barrierState (kernel : Kernel) (thread : Thread) (condition lock : Nat) :
    (kernel.waitLoop thread condition lock).barrierState = kernel.barrierState := by
  unfold waitLoop
  split
  · rw [block_barrierState]
  · rw [acquire_barrierState]
    rfl

/-- Constructing another object leaves a barrier alone. -/
theorem construct_barrierState {initial : Int} (differ : object ≠ .barrier barrier) :
    (kernel.construct object initial).barrierState barrier = kernel.barrierState barrier := by
  cases object with
  | barrier other =>
    -- Another barrier has counters of its own.
    have away : barrier ≠ other := fun same => differ (same ▸ rfl)
    simp [construct, barrierState, Function.update_of_ne away]
  | semaphore | lock | mutex | condition => rfl

/-- So does every primitive but `Wait` at this barrier. -/
theorem perform_barrierState {call : Call} (elsewhere : call ≠ .barrierWait barrier)
    (performed : kernel.perform thread call = .ok after) :
    after.barrierState barrier = kernel.barrierState barrier := by
  -- Most primitives touch a value, a queue and the ready list at most.
  cases call with
  | p semaphore =>
    cases performed
    rw [p_barrierState]
  | v semaphore =>
    cases performed
    rw [v_barrierState]
  | acquire lock =>
    cases performed
    rw [acquire_barrierState]
  | release lock =>
    cases performed
    rw [release_barrierState]
  | lockMutex mutex =>
    cases performed
    unfold lockMutex
    split
    · rfl
    · rw [block_barrierState]
  | unlockMutex mutex =>
    cases performed
    exact congrFun (kernel.wake_barrierState (.mutex mutex)) barrier
  | wait condition lock =>
    cases performed
    rw [wait, waitLoop_barrierState, releaseHeld]
    split
    · rw [release_barrierState]
    · rfl
  | signal condition lock =>
    cases performed
    unfold signal
    split
    · split
      · rfl
      · exact congrFun (kernel.wake_barrierState (.condition condition)) barrier
    · rfl
  | broadcast condition lock =>
    simp only [perform, broadcast] at performed
    split at performed
    · cases performed
    · cases performed
      rfl
  | barrierWait other =>
    have away : barrier ≠ other := fun same => elsewhere (same ▸ rfl)
    cases performed
    unfold barrierWait
    split
    · rw [block_barrierState]
      -- The counter that goes up is the one of the other barrier.
      simp [barrierState, Function.update_of_ne away]
    · have woken := congrFun (kernel.wakeTimes_barrierState (.barrier other) (kernel.size other))
        barrier
      simp only [barrierState, Prod.mk.injEq] at woken ⊢
      exact ⟨woken.1, (Function.update_of_ne away _ _).trans rfl⟩

/-- A thread that goes on in a primitive has been counted before. -/
theorem resume_barrierState (resumed : kernel.resume thread (kernel.place thread) = .ok after) :
    after.barrierState = kernel.barrierState := by
  -- Whatever is tried again, it is tried at an object of another kind.
  cases placed : kernel.place thread with
  | outside | finished => simp [placed, resume] at resumed
  | inP semaphore =>
    simp only [placed, resume, Except.ok.injEq] at resumed
    rw [← resumed, p_barrierState]
  | inAcquire lock =>
    simp only [placed, resume, Except.ok.injEq] at resumed
    rw [← resumed, acquire_barrierState]
  | inLock mutex =>
    simp only [placed, resume, Except.ok.injEq] at resumed
    rw [← resumed]
    unfold lockMutex
    split
    · rfl
    · rw [block_barrierState]
  | inWait condition lock =>
    simp only [placed, resume, Except.ok.injEq] at resumed
    rw [← resumed, waitLoop_barrierState]
  -- Nothing is left to do at a barrier.
  | inBarrier other =>
    simp only [placed, resume, Except.ok.injEq] at resumed
    rw [← resumed]
    rfl

/-- Only the constructor and `Wait` of a barrier change its members. -/
theorem barrierState_of_step (stepped : step kernel action = .ok after)
    (kept : ∀ initial, action ≠ .create (.barrier barrier) initial)
    (elsewhere : action ≠ .call (.barrierWait barrier)) :
    after.barrierState barrier = kernel.barrierState barrier := by
  cases step_stepped stepped with
  | call current outside usable performed =>
    exact perform_barrierState (fun same => elsewhere (same ▸ rfl)) performed
  | resume current usable resumed => rw [resume_barrierState resumed]
  | yield current outside =>
    unfold Kernel.yield
    split <;> rfl
  | fork current outside new vacant => rfl
  -- `Join` makes a semaphore, and waits at it.
  | @join caller thread _ current outside forked joined =>
    unfold Kernel.join at joined
    split at joined
    · cases joined
      rfl
    · split at joined
      · cases joined
        rw [p_barrierState]
        exact construct_barrierState (by simp)
      · cases joined
        rw [p_barrierState]
      · cases joined
  | finish current outside finished =>
    rcases Kernel.finish_eq_ok.mp finished with ⟨-, rfl⟩ | ⟨-, rfl⟩
    · rw [Kernel.sleep, dispatch_barrierState]
      rfl
    · rw [Kernel.sleep, dispatch_barrierState]
      exact congrFun (kernel.vTimes_barrierState _ _) barrier
  | create current outside isPublic unborn =>
    refine construct_barrierState ?_
    rintro rfl
    exact kept _ rfl
  | delete current outside isPublic live => rfl
  | interrupt settled live => rw [v_barrierState]
  | dispatch idle ready => rw [dispatch_barrierState]

/-- Waking so many threads moves the front of the queue behind the ready list. -/
theorem wakeTimes_lists (kernel : Kernel) (object : Object) (count : Nat) :
    (kernel.wakeTimes object count).readyList =
        kernel.readyList ++ (kernel.queue object).take count ∧
      (kernel.wakeTimes object count).queue object = (kernel.queue object).drop count := by
  induction count generalizing kernel with
  | zero => simp [wakeTimes]
  | succ count ih =>
    obtain ⟨ready, queue⟩ := ih (kernel.wake object)
    rw [wakeTimes, ready, queue]
    -- Each turn moves the first thread of the queue, if there is one.
    unfold wake
    cases waiting : kernel.queue object with
    | nil => simp [waiting]
    | cons first rest => simp [readyToRun]

end Kernel

/-- What happens at a barrier. -/
inductive Meeting where
  | created (size : Nat)
  /-- A thread arrives and sleeps. -/
  | blocked (thread : Thread)
  /-- A thread arrives and continues; these threads are ready then, and the count is this. -/
  | released (thread : Thread) (woken : List Thread) (count : Nat)
  /-- A thread that slept goes on behind the barrier. -/
  | left (thread : Thread)
  deriving DecidableEq, Repr

/-- What can be seen of a step at a barrier, as long as it is there. -/
def meet (barrier : Nat) (before : Kernel) (action : Action) (after : Kernel) : List Meeting :=
  match action, before.currentThread with
  | .create (.barrier other) _, some _ =>
    if other = barrier then [.created (after.size barrier)] else []
  | .call (.barrierWait other), some thread =>
    if other = barrier then
      if after.place thread = .inBarrier barrier then [.blocked thread]
      else [.released thread (after.readyList.drop before.readyList.length) (after.count barrier)]
    else []
  | .resume, some thread =>
    if before.place thread = .inBarrier barrier ∧ before.life (.barrier barrier) = .live then
      [.left thread]
    else []
  | _, _ => []

/-- A round of a barrier, and who has still to leave an earlier one. -/
structure Round where
  size : Nat
  /-- Those who have arrived in this round, in the order of their arrival. -/
  waiting : List Thread
  /-- Those whose round is complete, and who may leave it. -/
  leaving : List Thread

namespace Round

/-- Before the barrier is there. -/
def start : Round := ⟨0, [], []⟩

/-- What an event does to the rounds. -/
def apply (round : Round) : Meeting → Round
  | .created size => ⟨size, [], []⟩
  | .blocked thread => { round with waiting := round.waiting ++ [thread] }
  | .released _ _ _ => { round with waiting := [], leaving := round.leaving ++ round.waiting }
  | .left thread => { round with leaving := round.leaving.erase thread }

/-- A round is complete with this many threads more than the barrier is made for. -/
def Allowed (extra : Nat) (round : Round) : Meeting → Prop
  | .created _ => True
  | .blocked _ => round.waiting.length + 1 < round.size + extra
  | .released _ woken count =>
    round.waiting.length + 1 = round.size + extra ∧ woken = round.waiting ∧ count = 0
  | .left thread => thread ∈ round.leaving

instance (extra : Nat) (round : Round) (event : Meeting) : Decidable (round.Allowed extra event) := by
  cases event <;> unfold Allowed <;> infer_instance

end Round

/-- The members of a barrier tell how far its round is. -/
structure InRound (barrier : Nat) (kernel : Kernel) (round : Round) : Prop where
  size : kernel.size barrier = round.size
  nonempty : 0 < round.size
  count : kernel.count barrier = round.waiting.length
  queue : kernel.queue (.barrier barrier) = round.waiting
  within : round.waiting.length ≤ round.size
  places : ∀ thread, kernel.place thread = .inBarrier barrier →
    thread ∈ round.waiting ∨ thread ∈ round.leaving

/-- Barriers are made for one thread at least. -/
def Action.sizes (barrier : Nat) : Action → Prop
  | .create (.barrier other) size => other = barrier → 1 ≤ size ∧ size < 2 ^ 31
  | _ => True

instance (barrier : Nat) (action : Action) : Decidable (action.sizes barrier) :=
  match action with
  | .create (.barrier _) _ => inferInstanceAs (Decidable (_ → _))
  | .create (.semaphore _) _ | .create (.lock _) _ | .create (.mutex _) _
  | .create (.condition _) _ | .call _ | .resume | .yield | .fork _ | .join _ | .finish | .delete _
  | .interrupt _ | .dispatch => .isTrue trivial

/-- `Wait` with room in the barrier puts its caller to sleep. -/
theorem InRound.blocks {round : Round} (inRound : InRound barrier kernel round) (thread : Thread)
    (room : kernel.count barrier < kernel.size barrier) :
    (kernel.barrierWait thread barrier).place thread = .inBarrier barrier ∧
      InRound barrier (kernel.barrierWait thread barrier)
        { round with waiting := round.waiting ++ [thread] } := by
  have slept : kernel.barrierWait thread barrier = { kernel with
      count := Function.update kernel.count barrier (kernel.count barrier + 1) }.block thread
        (.barrier barrier) (.inBarrier barrier) := by
    rw [Kernel.barrierWait, if_pos room]
  -- Going to sleep keeps the two counters that were there before.
  have state := congrFun (Kernel.block_barrierState { kernel with
    count := Function.update kernel.count barrier (kernel.count barrier + 1) } thread
      (.barrier barrier) (.inBarrier barrier)) barrier
  simp only [Kernel.barrierState, Prod.mk.injEq, Function.update_self] at state
  obtain ⟨size, count⟩ := state
  have before := inRound.size
  have here := inRound.count
  rw [slept]
  refine ⟨by simp, size.trans before, inRound.nonempty, ?_, ?_, ?_, fun other there => ?_⟩
  · rw [count, here, List.length_append, List.length_singleton]
  · simp [inRound.queue]
  · rw [List.length_append, List.length_singleton]
    show round.waiting.length + 1 ≤ round.size
    omega
  · by_cases same : other = thread
    · exact .inl (by simp [same])
    · rw [Kernel.block_place, Function.update_of_ne same] at there
      exact (inRound.places other there).imp_left fun member => List.mem_append_left _ member

/-- `Wait` with no room left wakes everybody, and its caller continues. -/
theorem InRound.releases {round : Round} (inRound : InRound barrier kernel round) (thread : Thread)
    (full : ¬ kernel.count barrier < kernel.size barrier) :
    (kernel.barrierWait thread barrier).place = kernel.place ∧
      (kernel.barrierWait thread barrier).readyList = kernel.readyList ++ round.waiting ∧
      (kernel.barrierWait thread barrier).count barrier = 0 ∧
      InRound barrier (kernel.barrierWait thread barrier)
        { round with waiting := [], leaving := round.leaving ++ round.waiting } := by
  have size := inRound.size
  have nonempty := inRound.nonempty
  have within := inRound.within
  -- Everybody in the queue has arrived in this round, and there are as many as the loop wakes.
  have all : round.waiting.length = kernel.size barrier := by
    have count := inRound.count
    omega
  have released : kernel.barrierWait thread barrier =
      { kernel.wakeTimes (.barrier barrier) (kernel.size barrier) with
        count := Function.update kernel.count barrier 0 } := by
    rw [Kernel.barrierWait, if_neg full, if_neg (by omega)]
  obtain ⟨ready, queue⟩ := kernel.wakeTimes_lists (.barrier barrier) (kernel.size barrier)
  rw [inRound.queue, ← all, List.take_length] at ready
  rw [inRound.queue, ← all, List.drop_length] at queue
  have state := congrFun (kernel.wakeTimes_barrierState (.barrier barrier) (kernel.size barrier))
    barrier
  simp only [Kernel.barrierState, Prod.mk.injEq] at state
  have place := kernel.wakeTimes_place (.barrier barrier) (kernel.size barrier)
  rw [all] at ready queue
  rw [released]
  refine ⟨place, ready, Function.update_self _ _ _, state.1.trans size, nonempty,
    Function.update_self _ _ _, queue, Nat.zero_le _, fun other there => .inr ?_⟩
  -- Who was waiting may leave from now on.
  have before : kernel.place other = .inBarrier barrier := by
    rw [← place]
    exact there
  rcases inRound.places other before with waits | leaves
  · exact List.mem_append_right _ waits
  · exact List.mem_append_left _ leaves

/-- Steps that leave the barrier alone leave its round alone. -/
theorem InRound.frame {round : Round} (inRound : InRound barrier kernel round)
    (state : after.barrierState barrier = kernel.barrierState barrier)
    (queue : after.queue (.barrier barrier) = kernel.queue (.barrier barrier))
    (places : ∀ thread, after.place thread = .inBarrier barrier →
      kernel.place thread = .inBarrier barrier) : InRound barrier after round := by
  -- A round is read off the counters, the queue and the places.
  simp only [Kernel.barrierState, Prod.mk.injEq] at state
  exact ⟨state.1.trans inRound.size, inRound.nonempty, state.2.trans inRound.count,
    queue.trans inRound.queue, inRound.within,
    fun thread there => inRound.places thread (places thread there)⟩

/-- A new barrier has an empty round. -/
theorem inRound_construct (scheduled : Scheduled gone kernel)
    (unborn : kernel.life (.barrier barrier) = .unborn) {size : Int} (positive : 1 ≤ size)
    (fits : size < 2 ^ 31) :
    InRound barrier (kernel.construct (.barrier barrier) size)
      ⟨(kernel.construct (.barrier barrier) size).size barrier, [], []⟩ := by
  refine ⟨rfl, ?_, Function.update_self _ _ _, Function.update_self _ _ _, Nat.zero_le _,
    fun thread there => ?_⟩
  · show 0 < Function.update kernel.size barrier (size % 2 ^ 64).toNat barrier
    rw [Function.update_self]
    omega
  · -- Nobody can be at a barrier that has not been there.
    rw [Kernel.construct_place] at there
    exact (scheduled.born thread (.barrier barrier) (by rw [there]; rfl) unborn).elim

/-- A step that does not concern the barrier shows nothing of it. -/
theorem meet_eq_nil (created : ∀ size, action ≠ .create (.barrier barrier) size)
    (arrives : action ≠ .call (.barrierWait barrier))
    (leaves : action = .resume → ∀ thread, kernel.currentThread = some thread →
      kernel.place thread ≠ .inBarrier barrier) : meet barrier kernel action after = [] := by
  -- Three kinds of action are seen, and the hypotheses exclude each of them.
  unfold meet
  split
  · rw [if_neg]
    rintro rfl
    exact created _ rfl
  · rw [if_neg]
    rintro rfl
    exact arrives rfl
  · rw [if_neg]
    exact fun both => leaves rfl _ ‹_› both.1
  · rfl

/-- It leaves the round as it is. -/
theorem InRound.other {round : Round} (inRound : InRound barrier kernel round)
    (stepped : step kernel action = .ok after) (live : after.life (.barrier barrier) = .live)
    (before : kernel.life (.barrier barrier) = .live)
    (arrives : action ≠ .call (.barrierWait barrier))
    (leaves : action = .resume → ∀ thread, kernel.currentThread = some thread →
      kernel.place thread ≠ .inBarrier barrier) : InRound barrier after round := by
  have created (size : Int) : action ≠ .create (.barrier barrier) size := by
    rintro rfl
    cases step_stepped stepped with
    | create current outside isPublic unborn => simp [before] at unborn
  have owns : Public (fun object => decide (object = .barrier barrier)) := by
    intro object owned
    rw [of_decide_eq_true owned]
    rfl
  -- The action names the barrier neither as an argument nor as the place where a thread goes on.
  have avoids : action.avoids (fun object => decide (object = .barrier barrier)) = true := by
    cases action with
    | call call =>
      simp only [Action.avoids, List.all_eq_true, Bool.not_eq_true', decide_eq_false_iff_not]
      rintro object member rfl
      cases call <;> simp [Call.objects] at member
      exact arrives (by rw [member])
    | create object initial =>
      simp only [Action.avoids, Bool.not_eq_true', decide_eq_false_iff_not]
      rintro rfl
      exact created initial rfl
    | delete object =>
      simp only [Action.avoids, Bool.not_eq_true', decide_eq_false_iff_not]
      rintro rfl
      cases step_stepped stepped with
      | delete current outside isPublic live' => simp [Kernel.destruct] at live
    | resume | yield | fork | join | finish | interrupt | dispatch => rfl
  have away (resumes : action = .resume) (thread : Thread)
      (current : kernel.currentThread = some thread) :
      (kernel.place thread).touches (fun object => decide (object = .barrier barrier)) = false := by
    have elsewhere := leaves resumes thread current
    cases placed : kernel.place thread with
    | inBarrier other =>
      rw [placed] at elsewhere
      simpa [Place.touches] using elsewhere
    | outside | finished | inP | inAcquire | inLock | inWait => simp [Place.touches]
  have untouched := untouched_step owns stepped avoids away
  refine inRound.frame (Kernel.barrierState_of_step stepped created arrives)
    (untouched.queue _ (decide_eq_true rfl)) fun thread there => ?_
  rcases untouched.places thread with same | ⟨-, outside⟩
  · rw [← same, there]
  · simp [there, Place.touches] at outside

/-- The round of a barrier, in a kernel that is in order. -/
structure Rounds (barrier : Nat) (kernel : Kernel) (round : Round) : Prop where
  scheduled : Scheduled (fun object => kernel.life object = .deleted) kernel
  inRound : kernel.life (.barrier barrier) = .live → InRound barrier kernel round

/-- What a step can do at a barrier. -/
inductive Turn (barrier : Nat) (kernel : Kernel) (round : Round) (action : Action)
    (after : Kernel) : Prop
  /-- Nothing. -/
  | quiet (elsewhere : action ≠ .call (.barrierWait barrier))
      (seen : meet barrier kernel action after = []) (rounds : Rounds barrier after round)
  /-- It creates the barrier. -/
  | creates (size : Nat) (elsewhere : action ≠ .call (.barrierWait barrier))
      (seen : meet barrier kernel action after = [.created size]) (nonempty : 0 < size)
      (rounds : Rounds barrier after (round.apply (.created size)))
  /-- A thread arrives while there is room. -/
  | blocks (thread : Thread) (arrives : action = .call (.barrierWait barrier))
      (inRound : InRound barrier kernel round) (room : round.waiting.length < round.size)
      (seen : meet barrier kernel action after = [.blocked thread])
      (rounds : Rounds barrier after (round.apply (.blocked thread)))
  /-- A thread arrives when there is no room left. -/
  | releases (thread : Thread) (arrives : action = .call (.barrierWait barrier))
      (inRound : InRound barrier kernel round) (full : round.waiting.length = round.size)
      (seen : meet barrier kernel action after = [.released thread round.waiting 0])
      (rounds : Rounds barrier after (round.apply (.released thread round.waiting 0)))
  /-- A thread that has been released goes on. -/
  | leaves (thread : Thread) (elsewhere : action ≠ .call (.barrierWait barrier))
      (seen : meet barrier kernel action after = [.left thread])
      (released : thread ∈ round.leaving)
      (rounds : Rounds barrier after (round.apply (.left thread)))

/-- A thread that has the CPU at a barrier has been released there. -/
theorem Rounds.leaving_of_running {round : Round} (rounds : Rounds barrier kernel round)
    (live : kernel.life (.barrier barrier) = .live)
    (current : kernel.currentThread = some thread)
    (there : kernel.place thread = .inBarrier barrier) : thread ∈ round.leaving := by
  have inRound := rounds.inRound live
  -- Who still waits is in the queue, and so does not run.
  have running := (rounds.scheduled.running thread).mp current
  have off : thread ∉ kernel.queue (.barrier barrier) :=
    rounds.scheduled.not_queued (by simp [running]) _
  rw [inRound.queue] at off
  exact (inRound.places thread there).resolve_left off

/-- Every step is one of these. -/
theorem Rounds.turn {round : Round} (rounds : Rounds barrier kernel round)
    (sized : action.sizes barrier) (stepped : step kernel action = .ok after) :
    Turn barrier kernel round action after := by
  have ages := ages_of_step stepped
  have scheduled := rounds.scheduled.step stepped ages.deleted ages.abandoned
  by_cases creates : ∃ size, action = .create (.barrier barrier) size
  · -- The barrier is new, and so is its round.
    obtain ⟨size, rfl⟩ := creates
    obtain ⟨positive, fits⟩ := sized rfl
    cases step_stepped stepped with
    | create current outside isPublic unborn =>
      have inRound := inRound_construct rounds.scheduled unborn positive fits
      exact .creates _ (by simp) (by simp [meet, current]) inRound.nonempty
        ⟨scheduled, fun _ => inRound⟩
  · by_cases arrives : action = .call (.barrierWait barrier)
    · subst arrives
      cases step_stepped stepped with
      | @call thread _ _ current outside usable performed =>
        have inRound := rounds.inRound (usable _ (by simp [Call.objects]))
        cases performed
        by_cases room : kernel.count barrier < kernel.size barrier
        · obtain ⟨place, later⟩ := inRound.blocks thread room
          refine .blocks thread rfl inRound ?_ ?_ ⟨scheduled, fun _ => later⟩
          · rw [← inRound.count, ← inRound.size]
            exact room
          · simp [meet, current, place]
        · obtain ⟨place, ready, count, later⟩ := inRound.releases thread room
          refine .releases thread rfl inRound ?_ ?_ ⟨scheduled, fun _ => later⟩
          · have within := inRound.within
            rw [inRound.count, inRound.size] at room
            omega
          · simp [meet, current, place, outside, ready, count]
    · by_cases leaves : ∃ thread, action = .resume ∧ kernel.currentThread = some thread ∧
          kernel.place thread = .inBarrier barrier
      · obtain ⟨thread, rfl, current, there⟩ := leaves
        cases step_stepped stepped with
        | @resume running _ runs usable resumed =>
          rw [current, Option.some.injEq] at runs
          subst runs
          rw [there, Kernel.resume, Except.ok.injEq] at resumed
          subst resumed
          by_cases live : kernel.life (.barrier barrier) = .live
          · -- It is not in the queue, so its round is complete.
            have released := rounds.leaving_of_running live current there
            refine .leaves thread (by simp) (by simp [meet, current, there, live]) released
              ⟨scheduled, fun _ => ?_⟩
            have inRound := rounds.inRound live
            refine ⟨inRound.size, inRound.nonempty, inRound.count, inRound.queue, inRound.within,
              fun other still => ?_⟩
            by_cases same : other = thread
            · simp [same, Kernel.leave] at still
            · have before : kernel.place other = .inBarrier barrier := by
                simpa [Kernel.leave, Function.update_of_ne same] using still
              exact (inRound.places other before).imp_right fun member =>
                (List.mem_erase_of_ne same).mpr member
          · exact .quiet (by simp) (by simp [meet, current, live])
              ⟨scheduled, fun later => (live later).elim⟩
      · have away (resumes : action = .resume) (thread : Thread)
            (current : kernel.currentThread = some thread) :
            kernel.place thread ≠ .inBarrier barrier :=
          fun there => leaves ⟨thread, resumes, current, there⟩
        refine .quiet arrives (meet_eq_nil (fun size same => creates ⟨size, same⟩) arrives away)
          ⟨scheduled, fun live => ?_⟩
        -- A barrier that is there now and has not been created in this step was there before.
        have before : kernel.life (.barrier barrier) = .live := by
          cases life : kernel.life (.barrier barrier) with
          | live => rfl
          | deleted => simp [ages.deleted _ life] at live
          | unborn =>
            obtain ⟨initial, rfl, -⟩ := eq_construct_of_born stepped rfl life live
            exact (creates ⟨initial, rfl⟩).elim
        exact (rounds.inRound before).other stepped live before arrives away

/-- No barrier is there at first. -/
theorem rounds_boot {main : Thread} (boot : Boot kernel main) :
    Rounds barrier kernel Round.start where
  scheduled := scheduled_boot boot
  inRound live := by simp [boot.noObjects] at live

/--
A barrier lets threads meet in rounds of one more than it is made for.

In every run, the last thread of a round wakes all those who sleep there and continues with the
count at zero, the ones before it sleep, and nobody leaves a round that is not complete.
-/
theorem rounds_of_one_more {main : Thread} {history : List Meeting}
    (traced : Runs.Traced step (Boot · main) (fun _ action => action.sizes barrier)
      (meet barrier) kernel history) :
    Runs.Accepts Round.apply (Round.Allowed 1) Round.start history ∧
      Rounds barrier kernel (history.foldl Round.apply Round.start) := by
  refine traced.invariant (fun kernel history =>
    Runs.Accepts Round.apply (Round.Allowed 1) Round.start history ∧
      Rounds barrier kernel (history.foldl Round.apply Round.start)) ?_ ?_
  · exact fun kernel boot => ⟨trivial, rounds_boot boot⟩
  · intro kernel action after history both sized stepped
    obtain ⟨accepted, rounds⟩ := both
    rw [Runs.accepts_append, List.foldl_append]
    generalize history.foldl Round.apply Round.start = round at rounds ⊢
    cases rounds.turn sized stepped with
    | quiet elsewhere seen later =>
      rw [seen]
      exact ⟨⟨accepted, trivial⟩, later⟩
    | creates size elsewhere seen nonempty later =>
      rw [seen]
      exact ⟨⟨accepted, trivial, trivial⟩, later⟩
    | blocks thread arrives inRound room seen later =>
      rw [seen]
      exact ⟨⟨accepted, Nat.succ_lt_succ room, trivial⟩, later⟩
    | releases thread arrives inRound full seen later =>
      rw [seen]
      exact ⟨⟨accepted, ⟨congrArg (· + 1) full, rfl, rfl⟩, trivial⟩, later⟩
    | leaves thread elsewhere seen released later =>
      rw [seen]
      exact ⟨⟨accepted, released, trivial⟩, later⟩

/-- No thread arrives that would complete the round that the barrier is made for. -/
def Kernel.early (barrier : Nat) (kernel : Kernel) (action : Action) : Prop :=
  action = .call (.barrierWait barrier) → kernel.count barrier + 1 ≠ kernel.size barrier

instance (barrier : Nat) (kernel : Kernel) (action : Action) :
    Decidable (kernel.early barrier action) := inferInstanceAs (Decidable (_ → _))

/-- From a round with room for another one, a run keeps to the size exactly if it stays early. -/
theorem Rounds.meets_iff_early {actions : List Action} :
    ∀ {kernel : Kernel} {round : Round}, Rounds barrier kernel round →
      (0 < round.size → round.waiting.length < round.size) →
      (∀ action ∈ actions, action.sizes barrier) → Runs.run step kernel actions = .ok after →
      (Runs.Accepts Round.apply (Round.Allowed 0) round
          (Runs.record step (meet barrier) kernel actions) ↔
        Runs.Guarded step (fun kernel action => kernel.early barrier action) kernel actions) := by
  induction actions with
  | nil => exact fun _ _ _ _ => iff_of_true trivial trivial
  | cons action rest ih =>
    intro kernel round rounds room sized ran
    simp only [Runs.run] at ran
    split at ran
    · rename_i next stepped
      have later {round : Round} (rounds : Rounds barrier next round)
          (room : 0 < round.size → round.waiting.length < round.size) :=
        ih rounds room (fun other member => sized other (List.mem_cons_of_mem _ member)) ran
      simp only [Runs.record, Runs.Guarded, stepped, Runs.accepts_append]
      cases rounds.turn (sized action List.mem_cons_self) stepped with
      | quiet elsewhere seen rounds' =>
        rw [seen]
        have early : kernel.early barrier action := fun arrives => (elsewhere arrives).elim
        exact and_congr (iff_of_true trivial early) (later rounds' room)
      | creates size elsewhere seen nonempty rounds' =>
        rw [seen]
        have early : kernel.early barrier action := fun arrives => (elsewhere arrives).elim
        exact and_congr (iff_of_true ⟨trivial, trivial⟩ early) (later rounds' fun _ => nonempty)
      | blocks thread arrives inRound still seen rounds' =>
        rw [seen]
        by_cases last : round.waiting.length + 1 = round.size
        · -- This thread would have completed the round, and it sleeps.
          refine iff_of_false ?_ ?_
          · rintro ⟨⟨allowed, -⟩, -⟩
            exact absurd last (Nat.ne_of_lt allowed)
          · rintro ⟨early, -⟩
            exact early arrives (by rw [inRound.count, inRound.size, last])
        · have early : kernel.early barrier action := by
            intro _
            rwa [inRound.count, inRound.size]
          have allowed : round.waiting.length + 1 < round.size := by omega
          refine and_congr (iff_of_true ⟨allowed, trivial⟩ early) (later rounds' fun _ => ?_)
          simpa [Round.apply] using allowed
      | releases thread arrives inRound full seen rounds' =>
        -- The round has room, so nobody is released by now.
        exact absurd full (Nat.ne_of_lt (room inRound.nonempty))
      | leaves thread elsewhere seen released rounds' =>
        rw [seen]
        have early : kernel.early barrier action := fun arrives => (elsewhere arrives).elim
        exact and_congr (iff_of_true ⟨released, trivial⟩ early) (later rounds' room)
    · cases ran

/--
Threads meet in rounds of the size of the barrier exactly as long as nobody completes a round.

The history of a run at a barrier is one of rounds of its size if and only if no thread arrives
while all but one of a round are waiting.
-/
theorem rendezvous_iff_early {main : Thread} {actions : List Action} (boot : Boot kernel main)
    (sized : ∀ action ∈ actions, action.sizes barrier)
    (ran : Runs.run step kernel actions = .ok after) :
    Runs.Accepts Round.apply (Round.Allowed 0) Round.start
        (Runs.record step (meet barrier) kernel actions) ↔
      Runs.Guarded step (fun kernel action => kernel.early barrier action) kernel actions :=
  -- At first there is no barrier, and so no round that could be short of one thread only.
  (rounds_boot boot).meets_iff_early (fun nonempty => absurd nonempty (Nat.lt_irrefl 0)) sized ran

/-- Three threads are to meet, and two of them arrive. -/
def twoOfThree : List Action :=
  [.create (.barrier 0) 3, .fork 1, .call (.barrierWait 0), .call (.barrierWait 0)]

/-- They sleep, and nobody has left. -/
theorem rendezvous_iff_early_twoOfThree : ∃ kernel,
    Runs.run step firstKernel twoOfThree = .ok kernel ∧ kernel.queue (.barrier 0) = [0, 1] ∧
      Runs.Accepts Round.apply (Round.Allowed 0) Round.start
        (Runs.record step (meet 0) firstKernel twoOfThree) := by
  obtain ⟨kernel, ran, checked⟩ := Runs.exists_of_runsTo
    (show Runs.runsTo step firstKernel twoOfThree (fun kernel =>
      kernel.queue (.barrier 0) = [0, 1]) = true by decide +kernel)
  refine ⟨kernel, ran, by simpa using checked, ?_⟩
  exact (rendezvous_iff_early boot_firstKernel (by decide) ran).mpr (by decide +kernel)

/-- Two threads are to meet, and both of them arrive. -/
def bothArrive : List Action :=
  [.create (.barrier 0) 2, .fork 1, .call (.barrierWait 0), .call (.barrierWait 0)]

/-- Both of them sleep then, and nobody is left to wake them. -/
theorem not_rendezvous_bothArrive :
    (∃ kernel, Runs.run step firstKernel bothArrive = .ok kernel ∧
      kernel.queue (.barrier 0) = [0, 1] ∧ kernel.currentThread = none ∧ kernel.readyList = []) ∧
    ¬ Runs.Accepts Round.apply (Round.Allowed 0) Round.start
      (Runs.record step (meet 0) firstKernel bothArrive) := by
  refine ⟨?_, by decide +kernel⟩
  obtain ⟨kernel, ran, checked⟩ := Runs.exists_of_runsTo
    (show Runs.runsTo step firstKernel bothArrive (fun kernel =>
      kernel.queue (.barrier 0) = [0, 1] ∧ kernel.currentThread = none ∧
        kernel.readyList = []) = true by decide +kernel)
  exact ⟨kernel, ran, by simpa using checked⟩

end Nachos.Threads
