import Nachos.Threads.Routines

/-! A lock that the routines of a module take and give back. -/

namespace Nachos.Threads

variable {Data Phase Entry Choice Device : Type}
  {routines : Routines Data Phase Entry Choice Device} {rests : Phase → Place → Prop}
  {client next : Client Data Phase} {act : Act Entry Choice Device} {kernel after : Kernel}
  {thread : Thread}

/-- Who is inside has the lock, unless it has yet to get it, and nobody else is at it. -/
structure Exclusive (lock : Nat) (kernel : Kernel) (inside : Thread → Prop) : Prop where
  holds : ∀ thread, inside thread → (kernel.place thread).reacquires lock = false →
    kernel.lockState lock = (false, some thread)
  away : ∀ thread, ¬ inside thread → (kernel.place thread).reacquires lock = false

variable {lock : Nat} {inside later : Thread → Prop}

/-- Only one thread goes on inside. -/
theorem Exclusive.unique (exclusive : Exclusive lock kernel inside) {other : Thread}
    (first : inside thread) (here : (kernel.place thread).reacquires lock = false)
    (second : inside other) (there : (kernel.place other).reacquires lock = false) :
    other = thread := by
  have mine := exclusive.holds thread first here
  rw [exclusive.holds other second there, Prod.mk.injEq, Option.some.injEq] at mine
  exact mine.2

/-- Steps that leave the lock alone, and move nobody to it or from it, keep the exclusion. -/
theorem Exclusive.frame (exclusive : Exclusive lock kernel inside)
    (locks : after.lockState lock = kernel.lockState lock)
    (places : ∀ thread, (after.place thread).reacquires lock =
      (kernel.place thread).reacquires lock)
    (same : ∀ thread, later thread ↔ inside thread) : Exclusive lock after later where
  holds thread also here := by
    rw [locks]
    exact exclusive.holds thread ((same thread).mp also) (places thread ▸ here)
  away thread out := by
    rw [places]
    exact exclusive.away thread fun also => out ((same thread).mpr also)

/-- A thread that goes for the lock is inside from then on. -/
theorem Exclusive.acquire (exclusive : Exclusive lock kernel inside)
    (goes : ∀ other, later other ↔ inside other ∨ other = thread) :
    Exclusive lock (kernel.acquire thread lock) later := by
  have others (other : Thread) (differ : other ≠ thread) :
      (kernel.acquire thread lock).place other = kernel.place other :=
    Kernel.place_of_enters (enters_acquire kernel thread lock) differ
  refine ⟨fun other also here => ?_, fun other out => ?_⟩
  · unfold Kernel.acquire at here ⊢
    split at here
    · rename_i free
      rw [if_pos free]
      by_cases same : other = thread
      · simp [same, Kernel.lockState]
      · -- The lock was available, so nobody had it.
        have before : (kernel.place other).reacquires lock = false := by
          simpa [Kernel.leave, Function.update_of_ne same] using here
        have taken := exclusive.holds other (((goes other).mp also).resolve_right same) before
        simp [Kernel.lockState, free] at taken
    · rename_i taken
      rw [if_neg taken]
      by_cases same : other = thread
      · simp [same, Place.reacquires] at here
      · rw [Kernel.block_lockState]
        simp only [Kernel.block_place, Function.update_of_ne same] at here
        exact exclusive.holds other (((goes other).mp also).resolve_right same) here
  · have differ : other ≠ thread := fun same => out ((goes other).mpr (.inr same))
    rw [others other differ]
    exact exclusive.away other fun also => out ((goes other).mpr (.inl also))

/-- A thread that gives the lock back is inside no longer. -/
theorem Exclusive.release (exclusive : Exclusive lock kernel inside) (first : inside thread)
    (here : (kernel.place thread).reacquires lock = false)
    (leaves : ∀ other, later other ↔ inside other ∧ other ≠ thread) :
    Exclusive lock (kernel.release lock) later := by
  have place := (release_members kernel lock).2.2
  refine ⟨fun other also there => ?_, fun other out => ?_⟩
  · obtain ⟨second, differ⟩ := (leaves other).mp also
    rw [place] at there
    exact absurd (exclusive.unique first here second there) differ
  · rw [place]
    by_cases same : other = thread
    · exact same ▸ here
    · exact exclusive.away other fun also => out ((leaves other).mpr ⟨also, same⟩)

/-- A thread in the loop of `Wait` is inside from then on. -/
theorem Exclusive.waitLoop (exclusive : Exclusive lock kernel inside) (condition : Nat)
    (goes : ∀ other, later other ↔ inside other ∨ other = thread) :
    Exclusive lock (kernel.waitLoop thread condition lock) later := by
  unfold Kernel.waitLoop
  split
  · refine ⟨fun other also here => ?_, fun other out => ?_⟩
    · by_cases same : other = thread
      · simp [same, Place.reacquires] at here
      · rw [Kernel.block_lockState]
        rw [Kernel.block_place, Function.update_of_ne same] at here
        exact exclusive.holds other (((goes other).mp also).resolve_right same) here
    · have differ : other ≠ thread := fun same => out ((goes other).mpr (.inr same))
      rw [Kernel.block_place, Function.update_of_ne differ]
      exact exclusive.away other fun also => out ((goes other).mpr (.inl also))
  · exact Exclusive.acquire ⟨exclusive.holds, exclusive.away⟩ goes

/-- `Wait` gives the lock up and gets it back. -/
theorem Exclusive.wait (exclusive : Exclusive lock kernel inside) (condition : Nat)
    (first : inside thread) (here : (kernel.place thread).reacquires lock = false) :
    Exclusive lock (kernel.wait thread condition lock) inside := by
  have mine := exclusive.holds thread first here
  have held : kernel.isHeldBy lock thread = true := isHeldBy_of_owner (congrArg Prod.snd mine)
  rw [Kernel.wait, Kernel.releaseHeld, if_pos held]
  have released : Exclusive lock (kernel.release lock) fun other => inside other ∧ other ≠ thread :=
    exclusive.release first here fun _ => Iff.rfl
  refine released.waitLoop condition fun other => ?_
  by_cases same : other = thread
  · simp [same, first]
  · simp [same]

/-- A thread that goes on elsewhere does not come to the lock. -/
theorem reacquires_of_resume (away : (kernel.place thread).reacquires lock = false)
    (resumed : kernel.resume thread (kernel.place thread) = .ok after) (other : Thread) :
    (after.place other).reacquires lock = (kernel.place other).reacquires lock := by
  by_cases same : other = thread
  · rw [same, away]
    cases placed : kernel.place thread with
    | outside | finished => simp [placed, Kernel.resume] at resumed
    | inP semaphore =>
      simp only [placed, Kernel.resume, Except.ok.injEq] at resumed
      rw [← resumed]
      rcases place_of_p kernel thread semaphore with there | there <;> rw [there] <;> rfl
    | inAcquire held =>
      simp only [placed, Kernel.resume, Except.ok.injEq] at resumed
      rw [placed] at away
      rw [← resumed]
      rcases place_of_acquire kernel thread held with there | there <;> rw [there]
      · rfl
      · exact away
    | inLock mutex =>
      simp only [placed, Kernel.resume, Except.ok.injEq] at resumed
      rw [← resumed]
      rcases place_of_lockMutex kernel thread mutex with there | there <;> rw [there] <;> rfl
    | inWait condition held =>
      simp only [placed, Kernel.resume, Except.ok.injEq] at resumed
      rw [placed] at away
      rw [← resumed]
      rcases place_of_waitLoop kernel thread condition held with there | there | there <;>
        rw [there]
      · rfl
      · exact away
      · exact away
    | inBarrier barrier =>
      simp only [placed, Kernel.resume, Except.ok.injEq] at resumed
      rw [← resumed]
      simp [Kernel.leave, Place.reacquires]
  · rw [Kernel.resume_place_of_ne resumed same]

/-- A primitive that neither takes the lock nor gives it back. -/
def Call.spares (lock : Nat) : Call → Prop
  | .acquire other | .release other | .wait _ other => other ≠ lock
  | _ => True

/-- Such a primitive does not bring its caller to the lock. -/
theorem Call.spares.reacquires {call : Call} (spares : call.spares lock) {place : Place}
    (sleeps : call.sleeps place) : place.reacquires lock = false := by
  cases call with
  | acquire other =>
    rw [show place = .inAcquire other from sleeps]
    exact decide_eq_false spares
  | wait condition other =>
    rcases sleeps with rfl | rfl
    · exact decide_eq_false spares
    · exact decide_eq_false spares
  | p semaphore =>
    rw [show place = .inP _ from sleeps]
    rfl
  | lockMutex mutex =>
    rw [show place = .inLock _ from sleeps]
    rfl
  | barrierWait barrier =>
    rw [show place = .inBarrier _ from sleeps]
    rfl
  | v | release | unlockMutex | signal | broadcast => cases sleeps

/-- Where the threads that are inside have the lock, as far as the statements say. -/
structure Locking (routines : Routines Data Phase Entry Choice Device) (lock : Nat)
    (inside : Phase → Bool) : Prop where
  owned : routines.owns (.lock lock) = true
  silent : ∀ act thread phase data outcome,
    routines.statement act thread phase data = .ok outcome → outcome.call = none →
      inside outcome.phase = inside phase
  acquires : ∀ act thread phase data outcome,
    routines.statement act thread phase data = .ok outcome → outcome.call = some (.acquire lock) →
      inside phase = false ∧ inside outcome.phase = true
  releases : ∀ act thread phase data outcome,
    routines.statement act thread phase data = .ok outcome → outcome.call = some (.release lock) →
      inside phase = true ∧ inside outcome.phase = false
  waits : ∀ act thread phase data outcome condition,
    routines.statement act thread phase data = .ok outcome →
      outcome.call = some (.wait condition lock) →
        inside phase = true ∧ inside outcome.phase = true
  others : ∀ act thread phase data outcome call,
    routines.statement act thread phase data = .ok outcome → outcome.call = some call →
      call.spares lock → inside outcome.phase = inside phase

/-- Who touches nothing that is owned is not on its way to the lock. -/
theorem Locking.reacquires_of_away {inside : Phase → Bool} (locking : Locking routines lock inside)
    {place : Place} (away : place.touches routines.owns = false) :
    place.reacquires lock = false := by
  cases place with
  | inAcquire other | inWait _ other =>
    rw [Place.reacquires, decide_eq_false_iff_not]
    rintro rfl
    simp [Place.touches, locking.owned] at away
  | outside | finished | inP | inLock | inBarrier => rfl

/-- Nobody is inside at first. -/
theorem Locking.start {inside : Phase → Bool} (locking : Locking routines lock inside)
    (away : ∀ thread, (client.kernel.place thread).touches routines.owns = false)
    (out : ∀ thread, inside (client.phase thread) = false) :
    Exclusive lock client.kernel fun thread => inside (client.phase thread) = true where
  holds thread within := by
    rw [out thread] at within
    cases within
  away thread _ := locking.reacquires_of_away (away thread)

/-- Every step keeps the exclusion. -/
theorem Exclusive.step {inside : Phase → Bool}
    (exclusive : Exclusive lock client.kernel fun thread => inside (client.phase thread) = true)
    (locking : Locking routines lock inside) (moves : Moves routines rests client act next) :
    Exclusive lock next.kernel fun thread => inside (next.phase thread) = true := by
  cases moves with
  | @statement _ thread outcome current outside did silent =>
    refine exclusive.frame rfl (fun _ => rfl) fun other => ?_
    by_cases same : other = thread
    · simp only [same, Function.update_self, locking.silent _ _ _ _ _ did silent]
    · simp only [Function.update_of_ne same]
  | @call _ thread outcome call kernel current outside did calls performed =>
    have here : (client.kernel.place thread).reacquires lock = false := by
      rw [outside]
      rfl
    have phase (other : Thread) : inside (Function.update client.phase thread outcome.phase other) =
        if other = thread then inside outcome.phase else inside (client.phase other) := by
      rw [Function.update_apply]
      split <;> rfl
    by_cases spares : call.spares lock
    · have same := locking.others _ _ _ _ _ _ did calls spares
      refine exclusive.frame (Kernel.perform_lockState ?_ ?_ ?_ performed) (fun other => ?_) ?_
      · rintro rfl
        exact spares rfl
      · rintro rfl
        exact spares rfl
      · rintro condition rfl
        exact spares rfl
      · by_cases mine : other = thread
        · rw [mine, here]
          rcases place_of_perform outside performed with there | there
          · rw [there]
            rfl
          · exact spares.reacquires there
        · rw [Kernel.perform_place_of_ne performed mine]
      · intro other
        rw [phase]
        split
        · rename_i mine
          rw [same, mine]
        · exact Iff.rfl
    · cases call with
      | acquire other =>
        obtain rfl : other = lock := not_not.mp spares
        obtain ⟨out, into⟩ := locking.acquires _ _ _ _ _ did calls
        cases performed
        refine exclusive.acquire fun other => ?_
        rw [phase]
        by_cases mine : other = thread <;> simp [mine, into]
      | release other =>
        obtain rfl : other = lock := not_not.mp spares
        obtain ⟨first, out⟩ := locking.releases _ _ _ _ _ did calls
        cases performed
        refine exclusive.release first here fun other => ?_
        rw [phase]
        by_cases mine : other = thread <;> simp [mine, out]
      | wait condition other =>
        obtain rfl : other = lock := not_not.mp spares
        obtain ⟨first, still⟩ := locking.waits _ _ _ _ _ _ did calls
        cases performed
        refine (exclusive.wait condition first here).frame rfl (fun _ => rfl) fun other => ?_
        rw [phase]
        by_cases mine : other = thread <;> simp [mine, still, first]
      | p | v | lockMutex | unlockMutex | signal | broadcast | barrierWait =>
        exact absurd trivial spares
  | handle settled handled => exact exclusive
  | @raise device data semaphore settled handled =>
    refine exclusive.frame ?_ (fun other => ?_) fun _ => Iff.rfl
    · rw [Kernel.v_lockState]
    · rw [(raises_v client.kernel (.named semaphore)).place]
  | @resume thread kernel current busy rested resumed =>
    cases going : (client.kernel.place thread).reacquires lock with
    | false =>
      exact exclusive.frame (Kernel.resume_lockState going resumed)
        (reacquires_of_resume going resumed) fun _ => Iff.rfl
    | true =>
      have first : inside (client.phase thread) = true := by
        by_contra out
        simp [exclusive.away thread out] at going
      have stays (other : Thread) : inside (client.phase other) = true ↔
          inside (client.phase other) = true ∨ other = thread := by
        refine ⟨.inl, ?_⟩
        rintro (also | rfl)
        · exact also
        · exact first
      cases placed : client.kernel.place thread with
      | inAcquire other =>
        obtain rfl : other = lock := by simpa [placed, Place.reacquires] using going
        simp only [placed, Kernel.resume, Except.ok.injEq] at resumed
        exact resumed ▸ exclusive.acquire stays
      | inWait condition other =>
        obtain rfl : other = lock := by simpa [placed, Place.reacquires] using going
        simp only [placed, Kernel.resume, Except.ok.injEq] at resumed
        exact resumed ▸ exclusive.waitLoop condition stays
      | outside | finished | inP | inLock | inBarrier => simp [placed, Place.reacquires] at going
  | other stepped untouched still =>
    refine exclusive.frame (untouched.locks lock locking.owned) (fun thread => ?_) fun _ => Iff.rfl
    rcases untouched.places thread with same | ⟨before, later⟩
    · rw [same]
    · rw [locking.reacquires_of_away before, locking.reacquires_of_away later]

end Nachos.Threads
