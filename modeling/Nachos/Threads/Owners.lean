import Nachos.Threads.Addresses
import Nachos.Threads.Locks

/-! What `Lock::isHeldByCurrentThread` says, and what `Lock::Release` lets threads do. -/

namespace Nachos.Threads

variable {gone : Object → Prop} {kernel after : Kernel} {thread : Thread} {object : Object}
  {lock : Nat} {holders : Holders} {events : List Event} {exempt : Thread → Prop}

/-- An object is not given back by one thread while another one holds it. -/
def Holders.Respected (object : Object) (holders : Holders) : Event → Prop
  | .raised given giver => given = object → ∀ holder ∈ holders object, giver = some holder
  | _ => True

/-- A thread at this place will have the lock before it returns to its caller. -/
def Place.reacquires (lock : Nat) : Place → Bool
  | .inWait _ other | .inAcquire other => other = lock
  | _ => false

/-- The members of a lock. -/
def Kernel.lockState (kernel : Kernel) (lock : Nat) : Bool × Option Thread :=
  (kernel.available lock, kernel.owner lock)

/-- The members of a lock agree with who holds it, as far as threads can see. -/
structure Owning (exempt : Thread → Prop) (kernel : Kernel) (holders : Holders) (lock : Nat) :
    Prop where
  one : (holders (.lock lock)).length ≤ 1
  taken : kernel.available lock = false ↔ ∃ thread, thread ∈ holders (.lock lock)
  mine : ∀ thread ∈ holders (.lock lock), kernel.owner lock = some thread
  waits : ∀ thread, kernel.owner lock = some thread → thread ∈ holders (.lock lock) ∨
    (kernel.place thread).reacquires lock = true ∨ exempt thread

/-- Nothing happens to a lock that no event is about. -/
theorem holders_eq (silent : ∀ event ∈ events, event.about ≠ some object) :
    events.foldl Holders.apply holders object = holders object := by
  induction events generalizing holders with
  | nil => rfl
  | cons event rest ih =>
    rw [List.foldl_cons, ih fun later member => silent later (List.mem_cons_of_mem _ member)]
    have away := silent event List.mem_cons_self
    cases event with
    | created | slept | began | left | signalled => rfl
    | passed taken taker =>
      have differ : object ≠ taken := fun same => away (by simp [Event.about, same])
      rw [Holders.apply, Function.update_of_ne differ]
    | raised given giver =>
      have differ : object ≠ given := fun same => away (by simp [Event.about, same])
      cases giver with
      | none => rfl
      | some giver => rw [Holders.apply, Function.update_of_ne differ]

/-- Creating objects does not give anybody anything to hold. -/
theorem holders_of_created
    (created : ∀ event ∈ events, ∃ initial, event = .created object initial) :
    events.foldl Holders.apply holders = holders := by
  induction events with
  | nil => rfl
  | cons event rest ih =>
    obtain ⟨initial, rfl⟩ := created event List.mem_cons_self
    exact ih fun later member => created later (List.mem_cons_of_mem _ member)

/-- The holder of an object that is not given back is respected. -/
theorem respected_of_kept (kept : ∀ giver, .raised object giver ∉ events) :
    Runs.Accepts Holders.apply (Holders.Respected object) holders events := by
  induction events generalizing holders with
  | nil => trivial
  | cons event rest ih =>
    refine ⟨?_, ih fun giver member => kept giver (List.mem_cons_of_mem _ member)⟩
    cases event with
    | raised given giver =>
      rintro rfl
      exact (kept giver List.mem_cons_self).elim
    | created | passed | slept | began | left | signalled => trivial

/-- Events about other objects respect the holder of this one. -/
theorem respected_of_silent (silent : ∀ event ∈ events, event.about ≠ some object) :
    Runs.Accepts Holders.apply (Holders.Respected object) holders events :=
  respected_of_kept fun _ member => silent _ member rfl

/-- A step in which nothing happens to a lock, and nobody moves that goes for it. -/
theorem Owning.quiet (owning : Owning exempt kernel holders lock)
    (members : after.lockState lock = kernel.lockState lock)
    (places : ∀ other, (kernel.place other).reacquires lock = true →
      after.place other = kernel.place other)
    (silent : ∀ event ∈ events, event.about ≠ some (.lock lock)) :
    Owning exempt after (events.foldl Holders.apply holders) lock := by
  obtain ⟨available, owner⟩ := Prod.mk.inj members
  refine ⟨?_, ?_, ?_, ?_⟩
  · rw [holders_eq silent]
    exact owning.one
  · rw [holders_eq silent, available]
    exact owning.taken
  · rw [holders_eq silent, owner]
    exact owning.mine
  · rw [holders_eq silent, owner]
    intro other owns
    rcases owning.waits other owns with holds | going | spared
    · exact .inl holds
    · exact .inr (.inl (by rwa [places other going]))
    · exact .inr (.inr spared)

/-- A thread takes a free lock, or goes to sleep for one that is taken. -/
theorem Owning.acquire (owning : Owning exempt kernel holders lock)
    (spared : ∀ other, exempt other → other = thread) :
    Owning (fun _ => False) (kernel.acquire thread lock)
      ((settle (kernel.acquire thread lock) thread (.lock lock)).foldl Holders.apply holders)
      lock := by
  unfold Kernel.acquire
  split
  · rename_i free
    have nobody : holders (.lock lock) = [] := by
      refine List.eq_nil_iff_forall_not_mem.mpr fun other member => ?_
      have taken := owning.taken.mpr ⟨other, member⟩
      simp [free] at taken
    have outside : ({ kernel.leave thread with
        available := Function.update kernel.available lock false
        owner := Function.update kernel.owner lock (some thread) } : Kernel).place thread =
          .outside := by simp [Kernel.leave]
    simp only [settle, if_pos outside, List.foldl_cons, List.foldl_nil]
    refine ⟨?_, ?_, ?_, ?_⟩ <;> simp [Holders.apply, nobody]
  · rename_i taken
    have inside : (kernel.block thread (.lock lock) (.inAcquire lock)).place thread ≠
        .outside := by simp
    simp only [settle, if_neg inside, List.foldl_cons, List.foldl_nil, Holders.apply]
    obtain ⟨available, owner⟩ : (kernel.block thread (.lock lock)
        (.inAcquire lock)).available = kernel.available ∧ (kernel.block thread (.lock lock)
        (.inAcquire lock)).owner = kernel.owner := by
      simp only [Kernel.block, Kernel.sleep, Kernel.dispatch]
      split <;> exact ⟨rfl, rfl⟩
    refine ⟨owning.one, ?_, ?_, ?_⟩
    · rw [available]
      exact owning.taken
    · rw [owner]
      exact owning.mine
    · rw [owner]
      intro other owns
      rcases owning.waits other owns with holds | going | exempted
      · exact .inl holds
      · refine .inr (.inl ?_)
        by_cases same : other = thread
        · simp [same, Place.reacquires]
        · simpa [Function.update_of_ne same] using going
      · simp [spared other exempted, Place.reacquires]

/-- `Release` makes the lock available and forgets nothing else. -/
theorem release_members (kernel : Kernel) (lock : Nat) :
    (kernel.release lock).available = Function.update kernel.available lock true ∧
      (kernel.release lock).owner = kernel.owner ∧ (kernel.release lock).place = kernel.place := by
  unfold Kernel.release Kernel.wake
  split <;> exact ⟨rfl, rfl, rfl⟩

/-- Giving back a lock that is free changes nothing. -/
theorem Owning.release_free (owning : Owning exempt kernel holders lock)
    (free : kernel.available lock = true) (giver : Thread) :
    Owning exempt (kernel.release lock)
      (Holders.apply holders (.raised (.lock lock) (some giver))) lock := by
  have nobody : holders (.lock lock) = [] := by
    refine List.eq_nil_iff_forall_not_mem.mpr fun other member => ?_
    have taken := owning.taken.mpr ⟨other, member⟩
    simp [free] at taken
  have same : Holders.apply holders (.raised (.lock lock) (some giver)) = holders := by
    simp only [Holders.apply, nobody, List.erase_nil]
    exact Function.update_eq_self_iff.mpr nobody.symm
  obtain ⟨available, owner, place⟩ := release_members kernel lock
  rw [same]
  refine ⟨owning.one, ?_, ?_, ?_⟩
  · rw [available, Function.update_self, ← free]
    exact owning.taken
  · rw [owner]
    exact owning.mine
  · rw [owner, place]
    exact owning.waits

/-- A thread that gives back the lock it holds stays its owner. -/
theorem Owning.release_held (owning : Owning (fun _ => False) kernel holders lock)
    (holds : thread ∈ holders (.lock lock)) :
    Owning (· = thread) (kernel.release lock)
      (Holders.apply holders (.raised (.lock lock) (some thread))) lock := by
  have alone : holders (.lock lock) = [thread] := by
    obtain ⟨only, shape⟩ := List.length_eq_one_iff.mp
      (le_antisymm owning.one (List.length_pos_of_mem holds))
    rw [shape, List.mem_singleton] at holds
    rw [shape, holds]
  obtain ⟨available, owner, place⟩ := release_members kernel lock
  refine ⟨?_, ?_, ?_, ?_⟩
  · simp [Holders.apply, alone]
  · simp [Holders.apply, alone, available]
  · simp [Holders.apply, alone]
  · intro other owns
    rw [owner, owning.mine thread holds, Option.some.injEq] at owns
    exact .inr (.inr owns.symm)

/-- A thread in `Condition::Wait` will have the lock again, or has it. -/
theorem Owning.waitLoop (owning : Owning exempt kernel holders lock)
    (spared : ∀ other, exempt other → other = thread) (condition : Nat) :
    Owning (fun _ => False) (kernel.waitLoop thread condition lock)
      ((settleWait (kernel.waitLoop thread condition lock) thread condition lock).foldl
        Holders.apply holders) lock := by
  unfold Kernel.waitLoop
  split
  · have there : ((kernel.block thread (.condition condition)
        (.inWait condition lock)).place thread).object = some (.condition condition) := by
      simp [Place.object]
    rw [settleWait, if_pos there]
    obtain ⟨available, owner⟩ : (kernel.block thread (.condition condition)
        (.inWait condition lock)).available = kernel.available ∧ (kernel.block thread
        (.condition condition) (.inWait condition lock)).owner = kernel.owner := by
      simp only [Kernel.block, Kernel.sleep, Kernel.dispatch]
      split <;> exact ⟨rfl, rfl⟩
    refine ⟨owning.one, ?_, ?_, ?_⟩
    · rw [available]
      exact owning.taken
    · rw [owner]
      exact owning.mine
    · rw [owner]
      intro other owns
      by_cases same : other = thread
      · simp [same, Place.reacquires]
      · rcases owning.waits other owns with holds | going | exempted
        · exact .inl holds
        · refine .inr (.inl ?_)
          simpa [Function.update_of_ne same] using going
        · exact (same (spared other exempted)).elim
  · have going : Owning exempt
        { kernel with isBusy := Function.update kernel.isBusy condition true } holders lock :=
      ⟨owning.one, owning.taken, owning.mine, owning.waits⟩
    rw [settleWait, if_neg (acquire_away _ thread lock condition)]
    exact going.acquire spared

namespace Kernel

@[simp] theorem dispatch_lockState (kernel : Kernel) :
    kernel.dispatch.lockState = kernel.lockState := by
  unfold dispatch
  split <;> rfl

@[simp] theorem wake_lockState (kernel : Kernel) (object : Object) :
    (kernel.wake object).lockState = kernel.lockState := by
  unfold wake
  split <;> rfl

@[simp] theorem block_lockState (kernel : Kernel) (thread : Thread) (object : Object)
    (place : Place) : (kernel.block thread object place).lockState = kernel.lockState := by
  rw [block, sleep, dispatch_lockState]
  rfl

@[simp] theorem p_lockState (kernel : Kernel) (thread : Thread) (semaphore : SemaphoreName) :
    (kernel.p thread semaphore).lockState = kernel.lockState := by
  unfold p
  split
  · rw [block_lockState]
  · rfl

@[simp] theorem v_lockState (kernel : Kernel) (semaphore : SemaphoreName) :
    (kernel.v semaphore).lockState = kernel.lockState :=
  kernel.wake_lockState (.semaphore semaphore)

@[simp] theorem vTimes_lockState (kernel : Kernel) (semaphore : SemaphoreName) (count : Nat) :
    (kernel.vTimes semaphore count).lockState = kernel.lockState := by
  induction count generalizing kernel with
  | zero => rfl
  | succ count ih => rw [vTimes, ih, v_lockState]

@[simp] theorem wakeTimes_lockState (kernel : Kernel) (object : Object) (count : Nat) :
    (kernel.wakeTimes object count).lockState = kernel.lockState := by
  induction count generalizing kernel with
  | zero => rfl
  | succ count ih => rw [wakeTimes, ih, wake_lockState]

/-- Creating an object leaves the locks that are there alone. -/
theorem construct_lockState {initial : Int} (differ : object ≠ .lock lock) :
    (kernel.construct object initial).lockState lock = kernel.lockState lock := by
  cases object with
  | lock other =>
    have away : lock ≠ other := fun same => differ (congrArg _ same.symm)
    simp [construct, lockState, Function.update_of_ne away]
  | semaphore | mutex | condition | barrier => rfl

/-- A thread that goes for one lock leaves the others alone. -/
theorem acquire_lockState {other : Nat} (differ : lock ≠ other) :
    (kernel.acquire thread other).lockState lock = kernel.lockState lock := by
  unfold acquire
  split
  · simp [lockState, Function.update_of_ne differ]
  · rw [block_lockState]

/-- A lock that is given back leaves the others alone. -/
theorem release_lockState {other : Nat} (differ : lock ≠ other) :
    (kernel.release other).lockState lock = kernel.lockState lock := by
  obtain ⟨available, owner, -⟩ := release_members kernel other
  simp [lockState, available, owner, Function.update_of_ne differ]

/-- A thread that waits with one lock leaves the others alone. -/
theorem waitLoop_lockState {condition other : Nat} (differ : lock ≠ other) :
    (kernel.waitLoop thread condition other).lockState lock = kernel.lockState lock := by
  unfold waitLoop
  split
  · rw [block_lockState]
  · exact acquire_lockState differ

/-- The other primitives leave a lock alone. -/
theorem perform_lockState {call : Call} (acquires : call ≠ .acquire lock)
    (releases : call ≠ .release lock) (waits : ∀ condition, call ≠ .wait condition lock)
    (performed : kernel.perform thread call = .ok after) :
    after.lockState lock = kernel.lockState lock := by
  cases call with
  | p semaphore =>
    cases performed
    rw [p_lockState]
  | v semaphore =>
    cases performed
    rw [v_lockState]
  | acquire other =>
    cases performed
    exact acquire_lockState (by simpa [eq_comm] using acquires)
  | release other =>
    cases performed
    exact release_lockState (by simpa [eq_comm] using releases)
  | lockMutex mutex =>
    cases performed
    unfold lockMutex
    split
    · rfl
    · rw [block_lockState]
  | unlockMutex mutex =>
    cases performed
    exact congrFun (kernel.wake_lockState (.mutex mutex)) lock
  | wait condition other =>
    cases performed
    have differ : lock ≠ other := by simpa [eq_comm] using waits condition
    rw [wait, waitLoop_lockState differ, releaseHeld]
    split
    · exact release_lockState differ
    · rfl
  | signal condition other =>
    cases performed
    unfold signal
    split
    · split
      · rfl
      · exact congrFun (kernel.wake_lockState (.condition condition)) lock
    · rfl
  | broadcast condition other =>
    simp only [perform, broadcast] at performed
    split at performed
    · cases performed
    · cases performed
      rfl
  | barrierWait barrier =>
    cases performed
    unfold barrierWait
    split
    · rw [block_lockState]
      rfl
    · exact congrFun (kernel.wakeTimes_lockState _ _) lock

/-- A thread that goes on elsewhere leaves a lock alone. -/
theorem resume_lockState (away : (kernel.place thread).reacquires lock = false)
    (resumed : kernel.resume thread (kernel.place thread) = .ok after) :
    after.lockState lock = kernel.lockState lock := by
  cases placed : kernel.place thread with
  | outside | finished => simp [placed, resume] at resumed
  | inP semaphore =>
    simp only [placed, resume, Except.ok.injEq] at resumed
    rw [← resumed, p_lockState]
  | inAcquire other =>
    simp only [placed, resume, Except.ok.injEq] at resumed
    rw [← resumed]
    exact acquire_lockState (by simpa [placed, Place.reacquires, eq_comm] using away)
  | inLock mutex =>
    simp only [placed, resume, Except.ok.injEq] at resumed
    rw [← resumed]
    unfold lockMutex
    split
    · rfl
    · rw [block_lockState]
  | inWait condition other =>
    simp only [placed, resume, Except.ok.injEq] at resumed
    rw [← resumed]
    exact waitLoop_lockState (by simpa [placed, Place.reacquires, eq_comm] using away)
  | inBarrier barrier =>
    simp only [placed, resume, Except.ok.injEq] at resumed
    rw [← resumed]
    rfl

end Kernel

/-- The other primitives are not seen at a lock. -/
theorem silent_observeCall {call : Call} (acquires : call ≠ .acquire lock)
    (releases : call ≠ .release lock) (waits : ∀ condition, call ≠ .wait condition lock) :
    ∀ event ∈ observeCall kernel after thread call, event.about ≠ some (.lock lock) := by
  intro event member about
  cases call with
  | acquire other | release other =>
    have used := about_of_mem_observeCall member about
    simp_all [Call.objects]
  | p | v | lockMutex | unlockMutex | barrierWait =>
    have used := about_of_mem_observeCall member about
    simp [Call.objects] at used
  | wait condition other =>
    have used := about_of_mem_observeCall member about
    have differ := waits condition
    simp_all [Call.objects]
  | signal condition other =>
    simp only [observeCall] at member
    split at member
    · obtain ⟨waiter, -, rfl⟩ := List.mem_map.mp member
      cases about
    · cases member
  | broadcast => cases member

/-- Nobody gives anything back by going for an object. -/
theorem respected_settle (object target : Object) :
    Runs.Accepts Holders.apply (Holders.Respected object) holders
      (settle after thread target) := by
  unfold settle
  split <;> exact ⟨trivial, trivial⟩

/-- Nor in the loop of `Condition::Wait`. -/
theorem respected_settleWait (object : Object) (condition lock : Nat) :
    Runs.Accepts Holders.apply (Holders.Respected object) holders
      (settleWait after thread condition lock) := by
  unfold settleWait
  split
  · exact ⟨trivial, trivial⟩
  · exact ⟨trivial, respected_settle object (.lock lock)⟩

/-- The primitives keep the members of a lock in agreement, unless they release a taken one. -/
theorem Owning.perform {call : Call} (owning : Owning (fun _ => False) kernel holders lock)
    (outside : kernel.place thread = .outside)
    (told : kernel.isHeldBy lock thread = true → kernel.owner lock = some thread)
    (unreleased : call = .release lock → kernel.available lock = true)
    (performed : kernel.perform thread call = .ok after) :
    Runs.Accepts Holders.apply (Holders.Respected (.lock lock)) holders
        (observeCall kernel after thread call) ∧
      Owning (fun _ => False) after
        ((observeCall kernel after thread call).foldl Holders.apply holders) lock := by
  by_cases acquires : call = .acquire lock
  · subst acquires
    cases performed
    exact ⟨respected_settle _ _, owning.acquire fun _ spared => spared.elim⟩
  by_cases releases : call = .release lock
  · subst releases
    cases performed
    have free := unreleased rfl
    refine ⟨⟨fun _ holder holds => ?_, trivial⟩, owning.release_free free thread⟩
    have taken := owning.taken.mpr ⟨holder, holds⟩
    simp [free] at taken
  by_cases waits : ∃ condition, call = .wait condition lock
  · obtain ⟨condition, rfl⟩ := waits
    cases performed
    simp only [observeCall, Kernel.wait, Kernel.releaseHeld]
    split
    · -- The caller owns the lock and is not inside a primitive, so it does hold it.
      rename_i owns
      have holds : thread ∈ holders (.lock lock) := by
        rcases owning.waits thread (told owns) with holds | going | spared
        · exact holds
        · simp [outside, Place.reacquires] at going
        · exact spared.elim
      refine ⟨⟨fun _ holder also => ?_, trivial, respected_settleWait _ _ _⟩, ?_⟩
      · rw [← owning.mine holder also, owning.mine thread holds]
      · exact (owning.release_held holds).waitLoop (fun _ same => same) condition
    · exact ⟨⟨trivial, respected_settleWait _ _ _⟩,
        owning.waitLoop (fun _ spared => spared.elim) condition⟩
  · have elsewhere : ∀ condition, call ≠ .wait condition lock := fun condition same =>
      waits ⟨condition, same⟩
    have silent : ∀ event ∈ observeCall kernel after thread call,
        event.about ≠ some (.lock lock) := silent_observeCall acquires releases elsewhere
    refine ⟨respected_of_silent silent, owning.quiet
      (Kernel.perform_lockState acquires releases elsewhere performed) ?_ silent⟩
    intro other going
    refine Kernel.perform_place_of_ne performed ?_
    rintro rfl
    simp [outside, Place.reacquires] at going

/-- So does a thread that goes on. -/
theorem Owning.resume (owning : Owning (fun _ => False) kernel holders lock)
    (resumed : kernel.resume thread (kernel.place thread) = .ok after) :
    Runs.Accepts Holders.apply (Holders.Respected (.lock lock)) holders
        (observeResume after thread (kernel.place thread)) ∧
      Owning (fun _ => False) after
        ((observeResume after thread (kernel.place thread)).foldl Holders.apply holders) lock := by
  by_cases going : (kernel.place thread).reacquires lock = true
  · cases placed : kernel.place thread with
    | outside | finished | inP | inLock | inBarrier => simp [placed, Place.reacquires] at going
    | inAcquire other =>
      simp only [placed, Place.reacquires, decide_eq_true_eq] at going
      subst going
      simp only [placed, Kernel.resume, Except.ok.injEq] at resumed
      subst resumed
      exact ⟨respected_settle _ _, owning.acquire fun _ spared => spared.elim⟩
    | inWait condition other =>
      simp only [placed, Place.reacquires, decide_eq_true_eq] at going
      subst going
      simp only [placed, Kernel.resume, Except.ok.injEq] at resumed
      subst resumed
      exact ⟨respected_settleWait _ _ _, owning.waitLoop (fun _ spared => spared.elim) condition⟩
  · have away : (kernel.place thread).reacquires lock = false := by simpa using going
    have silent : ∀ event ∈ observeResume after thread (kernel.place thread),
        event.about ≠ some (.lock lock) := by
      intro event member about
      cases placed : kernel.place thread with
      | outside | finished | inBarrier => simp [placed, observeResume] at member
      | inP | inAcquire | inLock =>
        rw [placed] at member
        rw [about_of_mem_settle member, Option.some.injEq] at about
        simp_all [Place.reacquires]
      | inWait condition other =>
        rw [placed] at member
        have settled := about_of_mem_settleWait member about
        simp_all [Place.reacquires]
    refine ⟨respected_of_silent silent, owning.quiet (Kernel.resume_lockState away resumed) ?_
      silent⟩
    intro other reacquires
    refine Kernel.resume_place_of_ne resumed ?_
    rintro rfl
    simp [away] at reacquires

/-- `Acquire` makes its caller the owner, or nobody. -/
theorem acquire_owner {other : Nat} : (kernel.acquire thread other).owner lock = kernel.owner lock ∨
    (kernel.acquire thread other).owner lock = some thread := by
  by_cases same : lock = other
  · subst same
    unfold Kernel.acquire
    split
    · exact .inr (by simp)
    -- A lock that is taken keeps its owner while the caller goes to sleep.
    · exact .inl (congrArg Prod.snd (congrFun (kernel.block_lockState thread _ _) lock))
  · exact .inl (congrArg Prod.snd (Kernel.acquire_lockState same))

/-- So does `Condition::Wait` when it goes for the lock again. -/
theorem waitLoop_owner {condition other : Nat} :
    (kernel.waitLoop thread condition other).owner lock = kernel.owner lock ∨
      (kernel.waitLoop thread condition other).owner lock = some thread := by
  unfold Kernel.waitLoop
  split
  · exact .inl (congrArg Prod.snd (congrFun (kernel.block_lockState thread _ _) lock))
  · exact acquire_owner

/-- A primitive makes its caller the owner of a lock, or nobody. -/
theorem perform_owner {call : Call} (performed : kernel.perform thread call = .ok after) :
    after.owner lock = kernel.owner lock ∨ after.owner lock = some thread := by
  by_cases acquires : call = .acquire lock
  · subst acquires
    cases performed
    exact acquire_owner
  by_cases releases : call = .release lock
  · subst releases
    cases performed
    exact .inl (congrFun (release_members kernel lock).2.1 lock)
  by_cases waits : ∃ condition, call = .wait condition lock
  · obtain ⟨condition, rfl⟩ := waits
    cases performed
    -- The lock that is given back keeps its owner, until somebody takes it.
    have released : (kernel.releaseHeld thread lock).owner lock = kernel.owner lock := by
      unfold Kernel.releaseHeld
      split
      · exact congrFun (release_members kernel lock).2.1 lock
      · rfl
    rw [Kernel.wait, ← released]
    exact waitLoop_owner
  · refine .inl (congrArg Prod.snd (Kernel.perform_lockState acquires releases ?_ performed))
    exact fun condition same => waits ⟨condition, same⟩

/-- A thread that goes on becomes the owner of a lock, or nobody does. -/
theorem resume_owner (resumed : kernel.resume thread (kernel.place thread) = .ok after) :
    after.owner lock = kernel.owner lock ∨ after.owner lock = some thread := by
  cases placed : kernel.place thread with
  | outside | finished => simp [placed, Kernel.resume] at resumed
  | inAcquire other =>
    simp only [placed, Kernel.resume, Except.ok.injEq] at resumed
    exact resumed ▸ acquire_owner
  | inWait condition other =>
    simp only [placed, Kernel.resume, Except.ok.injEq] at resumed
    exact resumed ▸ waitLoop_owner
  | inP | inLock | inBarrier =>
    refine .inl (congrArg Prod.snd (Kernel.resume_lockState ?_ resumed))
    simp [placed, Place.reacquires]

/-- Every action other than to go on finds the running thread outside of the primitives. -/
theorem Stepped.outside {action : Action} (stepped : Stepped kernel action after)
    (starts : action ≠ .resume) (current : kernel.currentThread = some thread) :
    kernel.place thread = .outside := by
  cases stepped with
  | resume => exact (starts rfl).elim
  -- An interrupt comes while nobody runs, or while interrupts are enabled.
  | @interrupt semaphore settled live =>
    rcases settled with idle | called
    · simp [idle] at current
    · obtain ⟨caller, called⟩ := Option.ne_none_iff_exists'.mp called
      obtain ⟨running, outside⟩ := Kernel.caller_eq_some.mp called
      rw [current, Option.some.injEq] at running
      rw [running, outside]
  | dispatch idle ready => simp [idle] at current
  | call running outside | yield running outside | fork running outside | join running outside
  | finish running outside | create running outside | delete running outside =>
    rw [current, Option.some.injEq] at running
    rw [running, outside]

/-- What is no primitive leaves the locks that are there alone. -/
theorem lockState_of_step {action : Action} (stepped : step kernel action = .ok after)
    (live : kernel.life (.lock lock) = .live) (noCall : ∀ call, action ≠ .call call)
    (starts : action ≠ .resume) : after.lockState lock = kernel.lockState lock := by
  cases step_stepped stepped with
  | call => exact (noCall _ rfl).elim
  | resume => exact (starts rfl).elim
  | yield current outside =>
    unfold Kernel.yield
    split <;> rfl
  | fork current outside new vacant => rfl
  | join current outside forked joined =>
    unfold Kernel.join at joined
    split at joined
    · cases joined
      rfl
    · split at joined
      · cases joined
        rw [Kernel.p_lockState]
        exact Kernel.construct_lockState (by simp)
      · cases joined
        rw [Kernel.p_lockState]
      · cases joined
  | finish current outside finished =>
    -- The semaphore of those who joined is signalled, but no lock is touched.
    rcases Kernel.finish_eq_ok.mp finished with ⟨-, rfl⟩ | ⟨-, rfl⟩
    · rw [Kernel.sleep, Kernel.dispatch_lockState]
      rfl
    · rw [Kernel.sleep, Kernel.dispatch_lockState]
      exact congrFun (kernel.vTimes_lockState _ _) lock
  | create current outside isPublic unborn =>
    -- What is created now is another lock, since this one is there.
    refine Kernel.construct_lockState ?_
    rintro rfl
    simp [live] at unborn
  | delete current outside isPublic born => rfl
  | interrupt settled born => rw [Kernel.v_lockState]
  | dispatch idle ready => rw [Kernel.dispatch_lockState]

/-- Nor is it seen at one. -/
theorem silent_observe {action : Action} (stepped : step kernel action = .ok after)
    (live : kernel.life (.lock lock) = .live) (noCall : ∀ call, action ≠ .call call)
    (starts : action ≠ .resume) :
    ∀ event ∈ observe kernel action after, event.about ≠ some (.lock lock) := by
  intro event member about
  cases step_stepped stepped with
  | call => exact (noCall _ rfl).elim
  | resume => exact (starts rfl).elim
  | yield | fork | finish | delete | dispatch => simp [observe] at member
  | join current outside forked joined =>
    simp only [observe, current, observeJoin] at member
    -- What is seen of it is about the semaphore of those who join.
    split at member
    · cases member
    · rcases List.mem_append.mp member with new | settled
      · split at new
        · rw [List.mem_singleton.mp new] at about
          cases about
        · cases new
      · rw [about_of_mem_settle settled] at about
        cases about
  | create current outside isPublic unborn =>
    simp only [observe, current, List.mem_singleton] at member
    rw [member, Event.about, Option.some.injEq] at about
    simp [about, live] at unborn
  | interrupt settled born =>
    simp only [observe, List.mem_singleton] at member
    rw [member] at about
    cases about

/-- `Release` is called for a lock that is taken. -/
def Kernel.releasesTaken (kernel : Kernel) (lock : Nat) (action : Action) : Prop :=
  action = .call (.release lock) ∧ kernel.available lock = false

instance (kernel : Kernel) (lock : Nat) (action : Action) :
    Decidable (kernel.releasesTaken lock action) := inferInstanceAs (Decidable (_ ∧ _))

/-- `isHeldByCurrentThread` takes nobody for the owner that has been made and not ended. -/
structure Told (kernel : Kernel) (lock : Nat) : Prop where
  known : ∀ owner, kernel.owner lock = some owner → owner ∈ kernel.created
  only : ∀ thread ∈ kernel.created, kernel.place thread ≠ .finished →
    kernel.isHeldBy lock thread = true → kernel.owner lock = some thread

/-- A thread is started at the address of the thread that took a lock last. -/
def Kernel.inherits (kernel : Kernel) (lock : Nat) : Action → Bool
  | .fork thread => (kernel.owner lock).map kernel.address = some (kernel.address thread)
  | _ => false

/-- The new thread will be taken for the owner then. -/
theorem isHeldBy_eq_inherits (kernel : Kernel) (lock : Nat) (thread : Thread) :
    kernel.isHeldBy lock thread = kernel.inherits lock (.fork thread) := by
  cases owns : kernel.owner lock <;> simp [Kernel.isHeldBy, Kernel.inherits, owns]

/-- A lock that has no owner is held by nobody. -/
theorem told_of_none (nobody : kernel.owner lock = none) : Told kernel lock := by
  refine ⟨?_, ?_⟩
  · simp [nobody]
  · simp [Kernel.isHeldBy, nobody]

/-- The owner is known by its address. -/
theorem isHeldBy_of_owner (owns : kernel.owner lock = some thread) :
    kernel.isHeldBy lock thread = true := by simp [Kernel.isHeldBy, owns]

/-- A step makes the running thread the owner of a lock, or nobody. -/
theorem owner_of_step {action : Action} (stepped : step kernel action = .ok after)
    (live : kernel.life (.lock lock) = .live) :
    after.owner lock = kernel.owner lock ∨
      ∃ thread, kernel.currentThread = some thread ∧ after.owner lock = some thread := by
  -- Locks are taken in primitives, by those who call them or go on in them.
  by_cases calls : ∃ call, action = .call call
  · obtain ⟨call, rfl⟩ := calls
    cases step_stepped stepped with
    | call current outside usable performed =>
      exact (perform_owner performed).imp_right fun owns => ⟨_, current, owns⟩
  by_cases resumes : action = .resume
  · subst resumes
    cases step_stepped stepped with
    | resume current usable resumed =>
      exact (resume_owner resumed).imp_right fun owns => ⟨_, current, owns⟩
  · have members := lockState_of_step stepped live (fun call same => calls ⟨call, same⟩) resumes
    exact .inl (congrArg Prod.snd members)

/-- Every step tells the truth about the owner, unless a new thread comes to be where it was. -/
theorem Told.step {action : Action} (told : Told kernel lock) (apart : Apart kernel)
    (scheduled : Scheduled gone kernel) (stepped : step kernel action = .ok after)
    (live : kernel.life (.lock lock) = .live) (elsewhere : kernel.inherits lock action = false) :
    Told after lock := by
  by_cases forks : ∃ thread, action = .fork thread
  · obtain ⟨new, rfl⟩ := forks
    cases step_stepped stepped with
    | fork current outside unknown vacant =>
      refine ⟨fun owner owns => List.mem_cons_of_mem _ (told.known owner owns), ?_⟩
      intro thread made unfinished held
      rcases List.mem_cons.mp made with rfl | old
      -- The new thread is not where the owner was, and the other ones see what they saw.
      · have inherited : kernel.isHeldBy lock thread = true := held
        rw [isHeldBy_eq_inherits, elsewhere] at inherited
        cases inherited
      · exact told.only thread old unfinished held
  · have housing := housing_of_step stepped fun thread same => forks ⟨thread, same⟩
    obtain ⟨address, created⟩ := Prod.mk.inj housing
    have going : ∀ thread, after.place thread ≠ .finished → kernel.place thread ≠ .finished :=
      fun thread unfinished finished =>
        unfinished (scheduled.finished_of_step stepped finished)
    rcases owner_of_step stepped live with same | ⟨taker, current, taken⟩
    · -- The owner is the same, and so are the threads that go on.
      refine ⟨fun owner owns => ?_, fun thread made unfinished held => ?_⟩
      · rw [created]
        exact told.known owner (same ▸ owns)
      · rw [created] at made
        rw [Kernel.isHeldBy, same, address] at held
        rw [same]
        exact told.only thread made (going thread unfinished) held
    · -- The running thread has become the owner, and is alone where it is.
      obtain ⟨known, unended⟩ := scheduled.current_made current
      refine ⟨fun owner owns => ?_, fun thread made unfinished held => ?_⟩
      · rw [taken, Option.some.injEq] at owns
        rwa [created, ← owns]
      · rw [created] at made
        simp only [Kernel.isHeldBy, taken, address, Option.any_some, decide_eq_true_eq] at held
        rw [taken, apart taker known thread made unended (going thread unfinished) held]

/-- Where a new thread is taken for the owner, the owner has ended. -/
theorem ended_of_inherits {action : Action} (told : Told kernel lock)
    (stepped : step kernel action = .ok after) (inherits : kernel.inherits lock action = true) :
    ∃ owner, kernel.owner lock = some owner ∧ kernel.place owner = .finished := by
  cases step_stepped stepped with
  | fork current outside new vacant =>
    cases owns : kernel.owner lock with
    | none => simp [Kernel.inherits, owns] at inherits
    | some owner =>
      simp only [Kernel.inherits, owns, Option.map_some, Option.some.injEq,
        decide_eq_true_eq] at inherits
      -- Its address would not be vacant otherwise.
      have free := List.all_eq_true.mp vacant owner (told.known owner owns)
      exact ⟨owner, rfl, by simpa [inherits] using free⟩
  | _ => cases inherits

/-- Every step keeps the members of a lock in agreement, unless it releases a taken one. -/
theorem Owning.step {action : Action} (owning : Owning (fun _ => False) kernel holders lock)
    (told : Told kernel lock) (scheduled : Scheduled gone kernel)
    (stepped : step kernel action = .ok after) (live : kernel.life (.lock lock) = .live)
    (unreleased : ¬ kernel.releasesTaken lock action) :
    Runs.Accepts Holders.apply (Holders.Respected (.lock lock)) holders
        (observe kernel action after) ∧
      Owning (fun _ => False) after ((observe kernel action after).foldl Holders.apply holders)
        lock := by
  by_cases calls : ∃ call, action = .call call
  · obtain ⟨call, rfl⟩ := calls
    cases step_stepped stepped with
    | @call thread _ _ current outside usable performed =>
      obtain ⟨made, unfinished⟩ := scheduled.current_made current
      simp only [observe, current]
      -- The caller is told the truth, so `Condition::Wait` gives back only what it holds.
      refine owning.perform outside (told.only thread made unfinished) ?_ performed
      rintro rfl
      simpa [Kernel.releasesTaken] using unreleased
  by_cases resumes : action = .resume
  · subst resumes
    cases step_stepped stepped with
    | resume current usable resumed =>
      simp only [observe, current]
      exact owning.resume resumed
  · have noCall : ∀ call, action ≠ .call call := fun call same => calls ⟨call, same⟩
    have silent := silent_observe stepped live noCall resumes
    -- Only the running thread moves, and it is not on its way to a lock.
    refine ⟨respected_of_silent silent, owning.quiet
      (lockState_of_step stepped live noCall resumes) (fun other going => ?_) silent⟩
    refine Kernel.place_of_step stepped fun current => ?_
    have outside := (step_stepped stepped).outside resumes current
    simp [outside, Place.reacquires] at going

/-- What `isHeldByCurrentThread` and `Release` promise about a lock. -/
structure Owned (kernel : Kernel) (history : List Event) (lock : Nat) : Prop where
  /-- Every thread outside of the primitives is told that it holds the lock exactly if it does. -/
  held : ∀ thread ∈ kernel.created, kernel.place thread = .outside →
    (kernel.isHeldBy lock thread = true ↔ thread ∈ Holders.since history (.lock lock))
  /-- No thread has made the lock available while another one held it. -/
  respected : Runs.Accepts Holders.apply (Holders.Respected (.lock lock)) Holders.start history

/-- A thread outside of the primitives sees the members of a lock in agreement. -/
theorem Owning.owned {history : List Event}
    (owning : Owning (fun _ => False) kernel (Holders.since history) lock)
    (told : Told kernel lock)
    (respected : Runs.Accepts Holders.apply (Holders.Respected (.lock lock)) Holders.start
      history) : Owned kernel history lock := by
  refine ⟨fun thread made outside => ⟨fun held => ?_, fun holds => ?_⟩, respected⟩
  -- The owner holds the lock or goes for it, and outside of the primitives nobody goes for it.
  · rcases owning.waits thread (told.only thread made (by simp [outside]) held) with
      holds | going | spared
    · exact holds
    · simp [outside, Place.reacquires] at going
    · exact spared.elim
  · exact isHeldBy_of_owner (owning.mine thread holds)

/-- A lock that is taken is released wrongly, whoever does it. -/
theorem not_owned_of_releasesTaken {history : List Event} {action : Action}
    (owning : Owning (fun _ => False) kernel (Holders.since history) lock)
    (scheduled : Scheduled gone kernel)
    (stepped : step kernel action = .ok after) (released : kernel.releasesTaken lock action) :
    ¬ Owned after (history ++ observe kernel action after) lock := by
  obtain ⟨rfl, taken⟩ := released
  intro owned
  cases step_stepped stepped with
  | @call thread _ _ current outside usable performed =>
    cases performed
    simp only [observe, current, observeCall] at owned
    obtain ⟨holder, holds⟩ := owning.taken.mp taken
    have allowed := (Runs.accepts_append.mp owned.respected).2.1 rfl holder holds
    rw [Option.some.injEq] at allowed
    subst allowed
    -- The holder has given the lock back, but is told that it still holds it.
    obtain ⟨available, owner, place⟩ := release_members kernel lock
    have created : (kernel.release lock).created = kernel.created :=
      congrArg Prod.snd (kernel.release_housing lock)
    have told : (kernel.release lock).isHeldBy lock thread = true :=
      isHeldBy_of_owner (by rw [owner, owning.mine thread holds])
    have still := (owned.held thread (by rw [created]; exact (scheduled.current_made current).1)
      (by rw [place, outside])).mp told
    have freed := owning.release_held holds
    have empty : thread ∉ Holders.apply (Holders.since history)
        (.raised (.lock lock) (some thread)) (.lock lock) := by
      intro member
      have closed := freed.taken.mpr ⟨thread, member⟩
      simp [available] at closed
    rw [Holders.since_append] at still
    exact empty still

/-- A thread that comes to be where the owner was is told that it holds the lock. -/
theorem not_owned_of_inherits {history : List Event} {action : Action}
    (owning : Owning (fun _ => False) kernel (Holders.since history) lock)
    (told : Told kernel lock) (scheduled : Scheduled gone kernel)
    (stepped : step kernel action = .ok after) (inherits : kernel.inherits lock action = true) :
    ¬ Owned after (history ++ observe kernel action after) lock := by
  intro owned
  cases step_stepped stepped with
  | @fork caller thread current outside new vacant =>
    have held : (kernel.fork thread).isHeldBy lock thread = true :=
      (isHeldBy_eq_inherits kernel lock thread).trans inherits
    have holds := (owned.held thread List.mem_cons_self (scheduled.fresh thread new)).mp held
    -- But it has not even existed while anybody took the lock.
    simp only [observe, List.append_nil] at holds
    have known := told.known thread (owning.mine thread holds)
    exact (scheduled.made thread).mp known new
  | _ => cases inherits

/-- Only a lock that is there can be given back. -/
theorem live_of_raised {action : Action} {giver : Option Thread}
    (stepped : step kernel action = .ok after)
    (raised : .raised (.lock lock) giver ∈ observe kernel action after) :
    kernel.life (.lock lock) = .live := by
  cases step_stepped stepped with
  | call current outside live performed =>
    simp only [observe, current] at raised
    exact live _ (about_of_mem_observeCall raised rfl)
  | resume current live resumed =>
    simp only [observe, current] at raised
    exact about_of_mem_observeResume live resumed raised rfl
  | join current outside forked joined =>
    simp only [observe, current, observeJoin] at raised
    split at raised
    · cases raised
    · rcases List.mem_append.mp raised with new | settled
      · split at new
        · cases List.mem_singleton.mp new
        · cases new
      · cases about_of_mem_settle settled
  | create current outside isPublic unborn => simp [observe, current] at raised
  | interrupt | yield | fork | finish | delete | dispatch => simp [observe] at raised

/-- What is known of a lock as long as nobody releases it while it is taken, or inherits it. -/
structure Kept (kernel : Kernel) (history : List Event) (lock : Nat) : Prop where
  scheduled : Scheduled (fun object => kernel.life object = .deleted) kernel
  apart : Apart kernel
  respected : Runs.Accepts Holders.apply (Holders.Respected (.lock lock)) Holders.start history
  unborn : kernel.life (.lock lock) = .unborn →
    ∀ event ∈ history, event.about ≠ some (.lock lock)
  owning : kernel.life (.lock lock) = .live →
    Owning (fun _ => False) kernel (Holders.since history) lock
  told : kernel.life (.lock lock) = .live → Told kernel lock

/-- A new lock is free, and has no owner. -/
theorem owning_construct {history : List Event} {initial : Int}
    (silent : ∀ event ∈ history, event.about ≠ some (.lock lock)) :
    Owning (fun _ => False) (kernel.construct (.lock lock) initial)
      (Holders.since (history ++ observe kernel (.create (.lock lock) initial)
        (kernel.construct (.lock lock) initial))) lock := by
  have created : ∀ event ∈ observe kernel (.create (.lock lock) initial)
      (kernel.construct (.lock lock) initial),
      ∃ initial, event = .created (.lock lock) initial := by
    unfold observe
    split <;> simp_all
  -- Nobody can hold what no event has been about.
  have empty : Holders.since (history ++ observe kernel (.create (.lock lock) initial)
      (kernel.construct (.lock lock) initial)) (.lock lock) = [] := by
    rw [Holders.since_append, holders_of_created created]
    exact holders_eq silent
  refine ⟨by simp [empty], ?_, ?_, ?_⟩
  · rw [empty]
    simp [Kernel.construct]
  · simp [empty]
  · simp [Kernel.construct]

/-- Every other step keeps it. -/
theorem Kept.step {history : List Event} {action : Action} (kept : Kept kernel history lock)
    (stepped : step kernel action = .ok after) (unreleased : ¬ kernel.releasesTaken lock action)
    (elsewhere : kernel.inherits lock action = false) :
    Kept after (history ++ observe kernel action after) lock := by
  have ages := ages_of_step stepped
  -- While the lock is there, its members stay in agreement.
  have going : kernel.life (.lock lock) = .live →
      Runs.Accepts Holders.apply (Holders.Respected (.lock lock)) (Holders.since history)
          (observe kernel action after) ∧
        Owning (fun _ => False) after (Holders.since (history ++ observe kernel action after))
          lock := by
    intro live
    rw [Holders.since_append]
    exact (kept.owning live).step (kept.told live) kept.scheduled stepped live unreleased
  refine ⟨kept.scheduled.step stepped ages.deleted ages.abandoned,
    kept.apart.step kept.scheduled stepped, ?_, fun still => ?_, fun live => ?_, fun live => ?_⟩
  · refine Runs.accepts_append.mpr ⟨kept.respected, ?_⟩
    by_cases live : kernel.life (.lock lock) = .live
    · exact (going live).1
    -- A lock that is not there is given back by nobody.
    · exact respected_of_kept fun giver raised => live (live_of_raised stepped raised)
  · intro event member about
    rcases List.mem_append.mp member with old | new
    · exact kept.unborn (ages.unborn _ still) event old about
    · exact born_of_mem_observe stepped new about still
  · cases life : kernel.life (.lock lock) with
    | live => exact (going life).2
    | deleted => simp [ages.deleted _ life] at live
    -- The lock has been created in this step.
    | unborn =>
      obtain ⟨initial, rfl, rfl⟩ := eq_construct_of_born stepped rfl life live
      exact owning_construct (kept.unborn life)
  · cases life : kernel.life (.lock lock) with
    | live => exact (kept.told life).step kept.apart kept.scheduled stepped life elsewhere
    | deleted => simp [ages.deleted _ life] at live
    | unborn =>
      obtain ⟨initial, rfl, rfl⟩ := eq_construct_of_born stepped rfl life live
      exact told_of_none (by simp [Kernel.construct])

/--
In every run that never calls `Release` for a taken lock, and starts no thread where one was that
ended as its owner, threads are told the truth about who holds it.

From each state of such a run, the next step after which they no longer are is exactly such a one.
-/
theorem owned_iff_unreleased {main : Thread} {history : List Event}
    (traced : Runs.Traced step (Boot · main)
      (fun kernel action => ¬ kernel.releasesTaken lock action ∧
        kernel.inherits lock action = false) observe kernel history)
    (live : kernel.life (.lock lock) = .live) :
    Owned kernel history lock ∧ ∀ action after, step kernel action = .ok after →
      (Owned after (history ++ observe kernel action after) lock ↔
        ¬ kernel.releasesTaken lock action ∧ kernel.inherits lock action = false) := by
  have kept : Kept kernel history lock := by
    refine traced.invariant (Kept · · lock) (fun kernel boot => ?_) ?_
    · refine ⟨scheduled_boot boot, apart_boot boot, trivial, by simp, fun live => ?_,
        fun live => ?_⟩
      · simp [boot.noObjects] at live
      · simp [boot.noObjects] at live
    · exact fun before action after history kept spared stepped =>
        kept.step stepped spared.1 spared.2
  have owning := kept.owning live
  have told := kept.told live
  refine ⟨owning.owned told kept.respected, fun action after stepped => ⟨fun owned => ?_, ?_⟩⟩
  -- Each of the two steps that are excluded gives the lie to a thread.
  · refine ⟨fun released => ?_, ?_⟩
    · exact not_owned_of_releasesTaken owning kept.scheduled stepped released owned
    · by_contra inherits
      exact not_owned_of_inherits owning told kept.scheduled stepped (by simpa using inherits)
        owned
  · rintro ⟨unreleased, elsewhere⟩
    have later := kept.step stepped unreleased elsewhere
    obtain ⟨respected, next⟩ := owning.step told kept.scheduled stepped live unreleased
    rw [← Holders.since_append] at next
    exact next.owned (told.step kept.apart kept.scheduled stepped live elsewhere)
      later.respected

/-- Two threads go for a lock, and nobody gives it back. -/
def takeTwice : List Action :=
  [.create (.lock 0) 0, .call (.acquire 0), .fork 1, .yield, .call (.acquire 0)]

/-- The one that took it is told that it holds it. -/
theorem owned_takeTwice : ∃ kernel, Runs.run step firstKernel takeTwice = .ok kernel ∧
    kernel.isHeldBy 0 0 = true ∧
      Owned kernel (Runs.record step observe firstKernel takeTwice) 0 := by
  obtain ⟨kernel, ran, checked⟩ := Runs.exists_of_runsTo
    (show Runs.runsTo step firstKernel takeTwice (fun kernel =>
      kernel.isHeldBy 0 0 = true ∧ kernel.life (.lock 0) = .live) = true by decide +kernel)
  simp only [decide_eq_true_eq] at checked
  have traced : Runs.Traced step (Boot · 0)
      (fun kernel action => ¬ kernel.releasesTaken 0 action ∧
        kernel.inherits 0 action = false) observe kernel
      ([] ++ Runs.record step observe firstKernel takeTwice) :=
    Runs.Traced.extend (.start boot_firstKernel) (by decide +kernel) ran
  rw [List.nil_append] at traced
  exact ⟨kernel, ran, checked.1, (owned_iff_unreleased traced checked.2).1⟩

/-- Thread 1 ends as the owner of a lock, and thread 2 is started where it was. -/
def takeAndEnd : List Action :=
  [.create (.lock 0) 0, .fork 1, .yield, .call (.acquire 0), .finish, .fork 2]

example : Runs.runsTo step { firstKernel with address := min 1 } takeAndEnd (fun kernel =>
    kernel.isHeldBy 0 2 = true ∧ kernel.place 2 = .outside) = true := by decide +kernel

/-- A thread that takes a lock and gives it back. -/
def takeAndRelease : List Action := [.create (.lock 0) 0, .call (.acquire 0), .call (.release 0)]

/-- It is told that it holds a lock that it has given back. -/
theorem not_owned_takeAndRelease : ∃ kernel,
    Runs.run step firstKernel takeAndRelease = .ok kernel ∧ kernel.caller = some 0 ∧
      kernel.isHeldBy 0 0 = true ∧
      Holders.since (Runs.record step observe firstKernel takeAndRelease) (.lock 0) = [] ∧
        ¬ Owned kernel (Runs.record step observe firstKernel takeAndRelease) 0 := by
  obtain ⟨kernel, ran, checked⟩ := Runs.exists_of_runsTo
    (show Runs.runsTo step firstKernel takeAndRelease (fun kernel =>
      kernel.caller = some 0 ∧ kernel.isHeldBy 0 0 = true ∧ 0 ∈ kernel.created) = true by
      decide +kernel)
  simp only [decide_eq_true_eq] at checked
  have nobody : Holders.since (Runs.record step observe firstKernel takeAndRelease) (.lock 0) =
      [] := by decide +kernel
  obtain ⟨called, held, made⟩ := checked
  refine ⟨kernel, ran, called, held, nobody, fun owned => ?_⟩
  have holds := (owned.held 0 made (Kernel.caller_eq_some.mp called).2).mp held
  rw [nobody] at holds
  cases holds

end Nachos.Threads
