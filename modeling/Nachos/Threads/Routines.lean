import Nachos.Threads.Private

/-! Routines of a module that threads run, one statement at a time, above the kernel. -/

namespace Nachos.Threads

/-- What a statement does: it changes the data of the module, and may end with a primitive. -/
structure Outcome (Data Phase : Type) where
  data : Data
  call : Option Call
  phase : Phase

/-- What can happen next in a module. -/
inductive Act (Entry Choice Device : Type) where
  /-- The running thread calls a routine. -/
  | enter (entry : Entry)
  /-- The running thread goes on to the next statement of the routine it is in. -/
  | go (choice : Choice)
  /-- A device interrupt is handled. -/
  | device (device : Device)
  /-- Anything else that happens in the kernel. -/
  | other (action : Action)
  deriving DecidableEq, Repr

/-- A module: its routines statement by statement, and the handlers of its interrupts. -/
structure Routines (Data Phase Entry Choice Device : Type) where
  /-- The objects that only this module uses. -/
  owns : Object → Bool
  /-- The phase of a thread that is in none of the routines. -/
  idle : Phase → Bool
  enter : Thread → Entry → Data → Except Fault (Outcome Data Phase)
  go : Thread → Phase → Choice → Data → Except Fault (Outcome Data Phase)
  /-- A handler changes the data and may signal a semaphore. -/
  device : Device → Data → Except Fault (Data × Option Nat)

/-- The kernel, the data of a module above it, and where each thread is in the routines. -/
structure Client (Data Phase : Type) where
  kernel : Kernel
  data : Data
  phase : Thread → Phase

variable {Data Phase Entry Choice Device : Type}

/-- The effect of a statement on the whole state. -/
def Client.perform (client : Client Data Phase) (thread : Thread) (outcome : Outcome Data Phase) :
    Except Fault (Client Data Phase) :=
  match outcome.call with
  | none => .ok { client with
      data := outcome.data
      phase := Function.update client.phase thread outcome.phase }
  | some call =>
    match step client.kernel (.call call) with
    | .ok kernel => .ok ⟨kernel, outcome.data, Function.update client.phase thread outcome.phase⟩
    | .error fault => .error fault

namespace Routines

variable (routines : Routines Data Phase Entry Choice Device)

/-- The statement that a thread executes. -/
def statement (act : Act Entry Choice Device) (thread : Thread) (phase : Phase) (data : Data) :
    Except Fault (Outcome Data Phase) :=
  match act with
  | .enter entry => if routines.idle phase then routines.enter thread entry data else .error .disabled
  | .go choice => if routines.idle phase then .error .disabled else routines.go thread phase choice data
  | .device _ | .other _ => .error .disabled

/-- One step of the system. -/
def step (client : Client Data Phase) :
    Act Entry Choice Device → Except Fault (Client Data Phase)
  | .device device =>
    if client.kernel.Settled then
      match routines.device device client.data with
      | .ok (data, none) => .ok { client with data }
      | .ok (data, some semaphore) =>
        match Threads.step client.kernel (.interrupt semaphore) with
        | .ok kernel => .ok { client with kernel, data }
        | .error fault => .error fault
      | .error fault => .error fault
    else .error .disabled
  | .other action =>
    if action.avoids routines.owns ∧ (SynchList.byCaller action → client.kernel.caller.all fun thread =>
        routines.idle (client.phase thread)) then
      match Threads.step client.kernel action with
      | .ok kernel => .ok { client with kernel }
      | .error fault => .error fault
    else .error .disabled
  | act =>
    match client.kernel.caller with
    | none => .error .disabled
    | some thread =>
      match routines.statement act thread (client.phase thread) client.data with
      | .ok outcome => client.perform thread outcome
      | .error fault => .error fault

/-- The objects of a module have been created one after the other, after any run without them. -/
structure Made (objects : List (Object × Int)) (main : Thread) (kernel : Kernel) : Prop where
  owned : ∀ object, routines.owns object = true → object ∈ objects.map Prod.fst
  made : ∃ before history,
    Runs.Traced Threads.step (Boot · main) (fun _ _ => True) observe before history ∧
    (∀ object, routines.owns object = true → before.life object = .unborn) ∧
    Runs.run Threads.step before (objects.map fun pair => .create pair.1 pair.2) = .ok kernel

end Routines

/-- The places in which a primitive can leave its caller asleep. -/
def Call.sleeps : Call → Place → Prop
  | .p semaphore, place => place = .inP (.named semaphore)
  | .acquire lock, place => place = .inAcquire lock
  | .lockMutex mutex, place => place = .inLock mutex
  | .wait condition lock, place => place = .inWait condition lock ∨ place = .inAcquire lock
  | .barrierWait barrier, place => place = .inBarrier barrier
  | .v _, _ | .release _, _ | .unlockMutex _, _ | .signal _ _, _ | .broadcast _ _, _ => False

/-- What a module has to see to, so that its objects are its own. -/
structure Disciplined (routines : Routines Data Phase Entry Choice Device)
    (rests : Phase → Place → Prop) : Prop where
  isPublic : Public routines.owns
  /-- A statement calls a primitive on objects that are owned, and goes on where it slept. -/
  calls : ∀ act thread phase data outcome, routines.statement act thread phase data = .ok outcome →
    ∀ call ∈ outcome.call, (∀ object ∈ call.objects, routines.owns object = true) ∧
      ∀ place, call.sleeps place → routines.idle outcome.phase = false ∧ rests outcome.phase place
  /-- Threads sleep at owned objects. -/
  owned : ∀ phase place, rests phase place → place.touches routines.owns = true
  /-- Who waits at a condition goes for the lock next. -/
  reacquires : ∀ phase condition lock, rests phase (.inWait condition lock) →
    rests phase (.inAcquire lock)

/-- Threads are where their phases say. -/
structure Positioned (routines : Routines Data Phase Entry Choice Device)
    (rests : Phase → Place → Prop) (kernel : Kernel) (phase : Thread → Phase) : Prop where
  idle : ∀ thread, routines.idle (phase thread) = true →
    (kernel.place thread).touches routines.owns = false
  busy : ∀ thread, routines.idle (phase thread) = false →
    kernel.place thread = .outside ∨ rests (phase thread) (kernel.place thread)

variable {routines : Routines Data Phase Entry Choice Device} {rests : Phase → Place → Prop}
  {client next : Client Data Phase} {act : Act Entry Choice Device} {kernel after : Kernel}
  {thread : Thread}

/-- What a step does to the kernel, the data and the phases. -/
inductive Moves (routines : Routines Data Phase Entry Choice Device) (rests : Phase → Place → Prop)
    (client : Client Data Phase) : Act Entry Choice Device → Client Data Phase → Prop
  /-- The running thread executes a statement that ends without a primitive. -/
  | statement {act : Act Entry Choice Device} {thread : Thread} {outcome : Outcome Data Phase}
      (current : client.kernel.currentThread = some thread)
      (outside : client.kernel.place thread = .outside)
      (did : routines.statement act thread (client.phase thread) client.data = .ok outcome)
      (silent : outcome.call = none) :
      Moves routines rests client act { client with
        data := outcome.data
        phase := Function.update client.phase thread outcome.phase }
  /-- The running thread executes a statement that ends with a primitive. -/
  | call {act : Act Entry Choice Device} {thread : Thread} {outcome : Outcome Data Phase}
      {call : Call} {kernel : Kernel} (current : client.kernel.currentThread = some thread)
      (outside : client.kernel.place thread = .outside)
      (did : routines.statement act thread (client.phase thread) client.data = .ok outcome)
      (calls : outcome.call = some call)
      (performed : client.kernel.perform thread call = .ok kernel) :
      Moves routines rests client act
        ⟨kernel, outcome.data, Function.update client.phase thread outcome.phase⟩
  /-- A handler runs, and signals no semaphore. -/
  | handle {device : Device} {data : Data} (settled : client.kernel.Settled)
      (handled : routines.device device client.data = .ok (data, none)) :
      Moves routines rests client (.device device) { client with data }
  /-- A handler runs, and signals a semaphore. -/
  | raise {device : Device} {data : Data} {semaphore : Nat} (settled : client.kernel.Settled)
      (handled : routines.device device client.data = .ok (data, some semaphore)) :
      Moves routines rests client (.device device)
        { client with data, kernel := client.kernel.v (.named semaphore) }
  /-- The running thread goes on in a primitive that a routine has called. -/
  | resume {thread : Thread} {kernel : Kernel}
      (current : client.kernel.currentThread = some thread)
      (busy : routines.idle (client.phase thread) = false)
      (rested : rests (client.phase thread) (client.kernel.place thread))
      (resumed : client.kernel.resume thread (client.kernel.place thread) = .ok kernel) :
      Moves routines rests client (.other .resume) { client with kernel }
  /-- Something else happens, which concerns nobody in the routines. -/
  | other {action : Action} {kernel : Kernel} (stepped : Threads.step client.kernel action = .ok kernel)
      (untouched : Untouched routines.owns client.kernel kernel)
      (still : ∀ thread, routines.idle (client.phase thread) = false →
        kernel.place thread = client.kernel.place thread) :
      Moves routines rests client (.other action) { client with kernel }

/-- A place that touches an owned object is not outside. -/
theorem touches_outside (owns : Object → Bool) : Place.touches owns .outside = false := rfl

/-- The running thread goes on where it slept, or steps of others concern nobody in the routines. -/
theorem Positioned.other {action : Action} (positioned : Positioned routines rests client.kernel client.phase)
    (disciplined : Disciplined routines rests) (avoids : action.avoids routines.owns = true)
    (idle : SynchList.byCaller action = true → ∀ thread, client.kernel.caller = some thread →
      routines.idle (client.phase thread) = true)
    (stepped : Threads.step client.kernel action = .ok kernel) :
    Moves routines rests client (.other action) { client with kernel } := by
  by_cases own : action = .resume ∧ ∃ thread, client.kernel.currentThread = some thread ∧
      (client.kernel.place thread).touches routines.owns = true
  · obtain ⟨rfl, thread, current, touches⟩ := own
    have busy : routines.idle (client.phase thread) = false := by
      rw [← Bool.not_eq_true]
      intro quiet
      simp [positioned.idle thread quiet] at touches
    have rested := (positioned.busy thread busy).resolve_left fun outside => by
      simp [outside, touches_outside] at touches
    cases step_stepped stepped with
    | @resume running _ runs live resumed =>
      rw [current, Option.some.injEq] at runs
      subst runs
      exact .resume current busy rested resumed
  · have away : action = .resume → ∀ thread, client.kernel.currentThread = some thread →
        (client.kernel.place thread).touches routines.owns = false := by
      intro resumes thread current
      rw [← Bool.not_eq_true]
      exact fun touches => own ⟨resumes, thread, current, touches⟩
    refine .other stepped (untouched_step disciplined.isPublic stepped avoids away) ?_
    intro thread busy
    by_cases current : client.kernel.currentThread = some thread
    · cases asked : SynchList.byCaller action with
      | true =>
        have outside := SynchList.outside_of_byCaller asked current stepped
        have quiet := idle asked thread (Kernel.caller_eq_some.mpr ⟨current, outside⟩)
        simp [quiet] at busy
      | false =>
        by_cases resumes : action = .resume
        · -- Outside of the primitives there is nothing to go on with.
          subst resumes
          cases step_stepped stepped with
          | @resume running _ runs live resumed =>
            rw [current, Option.some.injEq] at runs
            subst runs
            rcases positioned.busy thread busy with outside | rested
            · simp [outside, Kernel.resume] at resumed
            · have touches := disciplined.owned _ _ rested
              simp [away rfl thread current] at touches
        · rw [SynchList.place_of_unasked asked resumes stepped]
    · exact Kernel.place_of_step stepped current

/-- A step that succeeds is one of these. -/
theorem Positioned.moves (positioned : Positioned routines rests client.kernel client.phase)
    (disciplined : Disciplined routines rests) (stepped : routines.step client act = .ok next) :
    Moves routines rests client act next := by
  have execute (act : Act Entry Choice Device)
      (stepped : (match client.kernel.caller with
        | none => .error .disabled
        | some thread =>
          match routines.statement act thread (client.phase thread) client.data with
          | .ok outcome => client.perform thread outcome
          | .error fault => .error fault) = Except.ok next) :
      Moves routines rests client act next := by
    split at stepped
    · cases stepped
    · rename_i thread caller
      obtain ⟨current, outside⟩ := Kernel.caller_eq_some.mp caller
      split at stepped
      · rename_i outcome did
        unfold Client.perform at stepped
        split at stepped
        · rename_i silent
          obtain rfl := Except.ok.inj stepped
          exact .statement current outside did silent
        · rename_i call calls
          split at stepped
          · rename_i kernel called
            obtain rfl := Except.ok.inj stepped
            exact .call current outside did calls (SynchList.performed_of_call current called)
          · cases stepped
      · cases stepped
  cases act with
  | enter entry => exact execute _ stepped
  | go choice => exact execute _ stepped
  | device device =>
    simp only [Routines.step] at stepped
    split at stepped
    · rename_i settled
      split at stepped
      · rename_i handled
        obtain rfl := Except.ok.inj stepped
        exact .handle settled handled
      · rename_i semaphore handled
        split at stepped
        · rename_i kernel raised
          obtain rfl := Except.ok.inj stepped
          cases step_stepped raised with
          | interrupt settled live => exact .raise settled handled
        · cases stepped
      · cases stepped
    · cases stepped
  | other action =>
    simp only [Routines.step] at stepped
    split at stepped
    · rename_i allowed
      split at stepped
      · rename_i kernel moved
        obtain rfl := Except.ok.inj stepped
        refine positioned.other disciplined allowed.1 (fun asked thread caller => ?_) moved
        have idle := allowed.2 asked
        rwa [caller] at idle
      · cases stepped
    · cases stepped

/-- A thread that goes for something has returned, or sleeps there. -/
theorem Enters.place_self {object : Object} {place : Place}
    (entered : Enters kernel thread object after)
    (only : ∀ other : Place, other.object = some object → other = place) :
    after.place thread = .outside ∨ after.place thread = place := by
  cases entered with
  | slept there nothing sleeps result => exact .inr (by simp [result, only there sleeps])
  | passed something queue there taken => exact .inl (by simp [there])

/-- A thread that goes for a semaphore has returned, or sleeps at it. -/
theorem place_of_p (kernel : Kernel) (thread : Thread) (semaphore : SemaphoreName) :
    (kernel.p thread semaphore).place thread = .outside ∨
      (kernel.p thread semaphore).place thread = .inP semaphore := by
  refine (enters_p kernel thread semaphore).place_self fun other sleeps => ?_
  cases other <;> simp_all [Place.object]

/-- A thread that goes for a lock has returned, or sleeps at it. -/
theorem place_of_acquire (kernel : Kernel) (thread : Thread) (lock : Nat) :
    (kernel.acquire thread lock).place thread = .outside ∨
      (kernel.acquire thread lock).place thread = .inAcquire lock := by
  refine (enters_acquire kernel thread lock).place_self fun other sleeps => ?_
  cases other <;> simp_all [Place.object]

/-- A thread that goes for a mutex has returned, or sleeps at it. -/
theorem place_of_lockMutex (kernel : Kernel) (thread : Thread) (mutex : Nat) :
    (kernel.lockMutex thread mutex).place thread = .outside ∨
      (kernel.lockMutex thread mutex).place thread = .inLock mutex := by
  refine (enters_lockMutex kernel thread mutex).place_self fun other sleeps => ?_
  cases other <;> simp_all [Place.object]

/-- The loop of `Wait` leaves its thread asleep at the condition, at the lock, or outside. -/
theorem place_of_waitLoop (kernel : Kernel) (thread : Thread) (condition lock : Nat) :
    (kernel.waitLoop thread condition lock).place thread = .outside ∨
      (kernel.waitLoop thread condition lock).place thread = .inWait condition lock ∨
      (kernel.waitLoop thread condition lock).place thread = .inAcquire lock := by
  unfold Kernel.waitLoop
  split
  · exact .inr (.inl (by simp))
  · exact (place_of_acquire _ thread lock).imp_right .inr

/-- A primitive leaves its caller outside, or asleep where it sleeps. -/
theorem place_of_perform {call : Call} (outside : kernel.place thread = .outside)
    (performed : kernel.perform thread call = .ok after) :
    after.place thread = .outside ∨ call.sleeps (after.place thread) := by
  cases call with
  | p semaphore =>
    cases performed
    exact place_of_p kernel thread _
  | acquire lock =>
    cases performed
    exact place_of_acquire kernel thread lock
  | lockMutex mutex =>
    cases performed
    exact place_of_lockMutex kernel thread mutex
  | wait condition lock =>
    cases performed
    exact place_of_waitLoop _ thread condition lock
  -- The others do not put their caller to sleep.
  | v semaphore =>
    cases performed
    exact .inl (by rw [(raises_v kernel _).place, outside])
  | release lock =>
    cases performed
    exact .inl (by rw [(raises_release kernel lock).place, outside])
  | unlockMutex mutex =>
    cases performed
    exact .inl (by rw [(raises_unlockMutex kernel mutex).place, outside])
  | signal condition lock =>
    cases performed
    exact .inl (by rw [SynchList.signal_place, outside])
  | broadcast condition lock =>
    simp only [Kernel.perform, Kernel.broadcast] at performed
    split at performed
    · cases performed
    · cases performed
      exact .inl outside
  | barrierWait barrier =>
    cases performed
    unfold Kernel.barrierWait
    split
    · exact .inr (by simp [Call.sleeps])
    · exact .inl (by simpa using outside)

/-- A thread that goes on where it slept is outside then, or asleep where it may be. -/
theorem Disciplined.place_of_resume {phase : Phase} (disciplined : Disciplined routines rests)
    (rested : rests phase (kernel.place thread))
    (resumed : kernel.resume thread (kernel.place thread) = .ok after) :
    after.place thread = .outside ∨ rests phase (after.place thread) := by
  cases placed : kernel.place thread with
  | outside | finished => simp [placed, Kernel.resume] at resumed
  | inP semaphore =>
    simp only [placed, Kernel.resume, Except.ok.injEq] at resumed
    rw [placed] at rested
    rw [← resumed]
    exact (place_of_p kernel thread semaphore).imp_right fun there => by rwa [there]
  | inAcquire lock =>
    simp only [placed, Kernel.resume, Except.ok.injEq] at resumed
    rw [placed] at rested
    rw [← resumed]
    exact (place_of_acquire kernel thread lock).imp_right fun there => by rwa [there]
  | inLock mutex =>
    simp only [placed, Kernel.resume, Except.ok.injEq] at resumed
    rw [placed] at rested
    rw [← resumed]
    exact (place_of_lockMutex kernel thread mutex).imp_right fun there => by rwa [there]
  | inWait condition lock =>
    simp only [placed, Kernel.resume, Except.ok.injEq] at resumed
    rw [placed] at rested
    rw [← resumed]
    rcases place_of_waitLoop kernel thread condition lock with there | there | there
    · exact .inl there
    · exact .inr (there ▸ rested)
    · exact .inr (there ▸ disciplined.reacquires _ _ _ rested)
  | inBarrier barrier =>
    simp only [placed, Kernel.resume, Except.ok.injEq] at resumed
    rw [← resumed]
    exact .inl (Function.update_self _ _ _)

/-- Every step leaves the threads where their phases say. -/
theorem Positioned.step (positioned : Positioned routines rests client.kernel client.phase)
    (disciplined : Disciplined routines rests) (moves : Moves routines rests client act next) :
    Positioned routines rests next.kernel next.phase := by
  cases moves with
  | @statement _ thread outcome current outside did silent =>
    refine ⟨fun other quiet => ?_, fun other busy => ?_⟩ <;> dsimp only at *
    · by_cases same : other = thread
      · rw [same, outside]
        rfl
      · rw [Function.update_of_ne same] at quiet
        exact positioned.idle other quiet
    · by_cases same : other = thread
      · exact .inl (same ▸ outside)
      · rw [Function.update_of_ne same] at busy ⊢
        exact positioned.busy other busy
  | @call _ thread outcome call kernel current outside did calls performed =>
    have rested := (disciplined.calls _ _ _ _ _ did call calls).2
    have place := place_of_perform outside performed
    refine ⟨fun other quiet => ?_, fun other busy => ?_⟩ <;> dsimp only at *
    · by_cases same : other = thread
      · subst same
        rw [Function.update_self] at quiet
        rcases place with there | there
        · rw [there]
          rfl
        · simp [(rested _ there).1] at quiet
      · rw [Function.update_of_ne same] at quiet
        rw [Kernel.perform_place_of_ne performed same]
        exact positioned.idle other quiet
    · by_cases same : other = thread
      · subst same
        rw [Function.update_self]
        exact place.imp_right fun there => (rested _ there).2
      · rw [Function.update_of_ne same] at busy ⊢
        rw [Kernel.perform_place_of_ne performed same]
        exact positioned.busy other busy
  | handle settled handled => exact ⟨positioned.idle, positioned.busy⟩
  | @raise device data semaphore settled handled =>
    have place := (raises_v client.kernel (.named semaphore)).place
    refine ⟨fun other quiet => ?_, fun other busy => ?_⟩
    · rw [place]
      exact positioned.idle other quiet
    · rw [place]
      exact positioned.busy other busy
  | @resume thread kernel current busy rested resumed =>
    refine ⟨fun other quiet => ?_, fun other busy' => ?_⟩
    · have apart : other ≠ thread := by
        rintro rfl
        simp [quiet] at busy
      rw [Kernel.resume_place_of_ne resumed apart]
      exact positioned.idle other quiet
    · by_cases same : other = thread
      · exact same ▸ disciplined.place_of_resume rested resumed
      · rw [Kernel.resume_place_of_ne resumed same]
        exact positioned.busy other busy'
  | other stepped untouched still =>
    refine ⟨fun thread quiet => ?_, fun thread busy => ?_⟩
    · rcases untouched.places thread with same | ⟨-, away⟩
      · rw [same]
        exact positioned.idle thread quiet
      · exact away
    · rw [still thread busy]
      exact positioned.busy thread busy

/-- The lists and the threads agree, and the owned objects are there. -/
structure Grounded (owns : Object → Bool) (kernel : Kernel) : Prop where
  scheduled : Scheduled (fun object => kernel.life object = .deleted) kernel
  live : ∀ object, owns object = true → kernel.life object = .live

/-- The owned objects are not deleted by others. -/
theorem Grounded.below {owns : Object → Bool} {action : Action} (grounded : Grounded owns kernel)
    (isPublic : Public owns) (kept : ∀ object, owns object = true → action ≠ .delete object)
    (stepped : Threads.step kernel action = .ok after) : Grounded owns after where
  scheduled := by
    have ages := ages_of_step stepped
    exact grounded.scheduled.step stepped ages.deleted ages.abandoned
  live object owned :=
    life_of_spares stepped (isPublic object owned) (kept object owned) (grounded.live object owned)

/-- A step of a module is no step of the kernel, or one that deletes no owned object. -/
theorem kernel_of_step (stepped : routines.step client act = .ok next) :
    next.kernel = client.kernel ∨ ∃ action, Threads.step client.kernel action = .ok next.kernel ∧
      ∀ object, routines.owns object = true → action ≠ .delete object := by
  have execute (act : Act Entry Choice Device)
      (stepped : (match client.kernel.caller with
        | none => .error .disabled
        | some thread =>
          match routines.statement act thread (client.phase thread) client.data with
          | .ok outcome => client.perform thread outcome
          | .error fault => .error fault) = Except.ok next) :
      next.kernel = client.kernel ∨ ∃ action, Threads.step client.kernel action = .ok next.kernel ∧
        ∀ object, routines.owns object = true → action ≠ .delete object := by
    split at stepped
    · cases stepped
    · split at stepped
      · unfold Client.perform at stepped
        split at stepped
        · obtain rfl := Except.ok.inj stepped
          exact .inl rfl
        · rename_i call calls
          split at stepped
          · rename_i kernel called
            obtain rfl := Except.ok.inj stepped
            exact .inr ⟨_, called, by simp⟩
          · cases stepped
      · cases stepped
  cases act with
  | enter entry => exact execute _ stepped
  | go choice => exact execute _ stepped
  | device device =>
    simp only [Routines.step] at stepped
    split at stepped
    · split at stepped
      · obtain rfl := Except.ok.inj stepped
        exact .inl rfl
      · split at stepped
        · rename_i kernel raised
          obtain rfl := Except.ok.inj stepped
          exact .inr ⟨_, raised, by simp⟩
        · cases stepped
      · cases stepped
    · cases stepped
  | other action =>
    simp only [Routines.step] at stepped
    split at stepped
    · rename_i allowed
      split at stepped
      · rename_i kernel moved
        obtain rfl := Except.ok.inj stepped
        refine .inr ⟨action, moved, ?_⟩
        rintro object owned rfl
        simp [Action.avoids, owned] at allowed
      · cases stepped
    · cases stepped

/-- Every step of a module leaves its objects there. -/
theorem Grounded.step (grounded : Grounded routines.owns client.kernel)
    (isPublic : Public routines.owns) (stepped : routines.step client act = .ok next) :
    Grounded routines.owns next.kernel := by
  rcases kernel_of_step stepped with same | ⟨action, moved, kept⟩
  · rw [same]
    exact grounded
  · exact grounded.below isPublic kept moved

variable {fault : Fault}

/-- Objects that are owned are there to be used. -/
theorem Grounded.usable {owns : Object → Bool} {objects : List Object}
    (grounded : Grounded owns kernel) (owned : ∀ object ∈ objects, owns object = true) :
    kernel.usable objects = true := by
  simp only [Kernel.usable, List.all_eq_true, decide_eq_true_eq]
  exact fun object member => grounded.live object (owned object member)

/-- Only `Broadcast` can fail to return. -/
theorem perform_error {call : Call} (failed : kernel.perform thread call = .error fault) :
    ∃ condition lock, call = .broadcast condition lock := by
  cases call with
  | broadcast condition lock => exact ⟨condition, lock, rfl⟩
  | _ => cases failed

/-- A step of a module goes wrong only in a statement of its own. -/
theorem Grounded.step_go {choice : Choice} (grounded : Grounded routines.owns client.kernel)
    (disciplined : Disciplined routines rests)
    (silent : ∀ thread outcome condition lock, routines.statement (.go choice) thread
      (client.phase thread) client.data = .ok outcome →
        outcome.call ≠ some (.broadcast condition lock))
    (failed : routines.step client (.go choice) = .error fault) :
    fault = .disabled ∨ ∃ thread, client.kernel.currentThread = some thread ∧
      client.kernel.place thread = .outside ∧
      routines.statement (.go choice) thread (client.phase thread) client.data = .error fault := by
  simp only [Routines.step] at failed
  split at failed
  · exact .inl (Except.error.inj failed).symm
  · rename_i thread caller
    obtain ⟨current, outside⟩ := Kernel.caller_eq_some.mp caller
    split at failed
    · rename_i outcome did
      unfold Client.perform at failed
      split at failed
      · cases failed
      · rename_i call calls
        split at failed
        · cases failed
        · -- The primitive finds its objects, so it could only be a broadcast.
          rename_i other wrong
          have owned := (disciplined.calls _ _ _ _ _ did call calls).1
          simp only [Threads.step, caller, if_pos (grounded.usable owned)] at wrong
          obtain ⟨condition, lock, rfl⟩ := perform_error wrong
          exact absurd calls (silent _ _ _ _ did)
    · rename_i other wrong
      obtain rfl := Except.error.inj failed
      exact .inr ⟨thread, current, outside, wrong⟩

/-- An interrupt goes wrong only in its handler. -/
theorem Grounded.step_device {device : Device} (grounded : Grounded routines.owns client.kernel)
    (owned : ∀ data semaphore, routines.device device client.data = .ok (data, some semaphore) →
      routines.owns (.semaphore (.named semaphore)) = true)
    (failed : routines.step client (.device device) = .error fault) :
    fault = .disabled ∨ routines.device device client.data = .error fault := by
  simp only [Routines.step] at failed
  split at failed
  · rename_i settled
    split at failed
    · cases failed
    · rename_i data semaphore handled
      split at failed
      · cases failed
      · -- The semaphore is there.
        rename_i other wrong
        have there : client.kernel.usable [.semaphore (.named semaphore)] = true :=
          grounded.usable (by simpa using owned data semaphore handled)
        simp only [Threads.step, if_pos settled, if_pos there] at wrong
        cases wrong
    · rename_i other wrong
      obtain rfl := Except.error.inj failed
      exact .inr wrong
  · exact .inl (Except.error.inj failed).symm

/-- Going on behind a `Sleep` goes wrong only if an object is gone. -/
theorem Grounded.step_resume (grounded : Grounded routines.owns client.kernel)
    (current : client.kernel.currentThread = some thread)
    (owned : ∀ object ∈ client.kernel.needs (client.kernel.place thread),
      routines.owns object = true)
    (failed : routines.step client (.other .resume) = .error fault) : fault = .disabled := by
  simp only [Routines.step] at failed
  split at failed
  · split at failed
    · cases failed
    · rename_i other wrong
      obtain rfl := Except.error.inj failed
      simp only [Threads.step, current, if_pos (grounded.usable owned)] at wrong
      cases placed : client.kernel.place thread <;> rw [placed] at wrong <;> cases wrong <;> rfl
  · exact (Except.error.inj failed).symm

/-- An object is as its constructor has made it. -/
def Fresh (kernel : Kernel) (object : Object) (initial : Int) : Prop :=
  kernel.queue object = [] ∧
    match object with
    | .semaphore name => kernel.value name = BitVec.ofInt 32 initial
    | .lock id => kernel.lockState id = (true, none)
    | .condition id => kernel.isBusy id = true
    | .mutex _ | .barrier _ => True

/-- The constructor makes it so. -/
theorem fresh_construct (kernel : Kernel) (object : Object) (initial : Int) :
    Fresh (kernel.construct object initial) object initial := by
  cases object <;> simp [Fresh, Kernel.construct, Kernel.lockState]

/-- It stays so while nobody touches it. -/
theorem Fresh.untouched {owns : Object → Bool} {object : Object} {initial : Int}
    (fresh : Fresh kernel object initial) (untouched : Untouched owns kernel after)
    (owned : owns object = true) : Fresh after object initial := by
  refine ⟨(untouched.queue object owned).trans fresh.1, ?_⟩
  cases object with
  | semaphore name => exact (Kernel.value_eq_of_units (untouched.units _ owned)).trans fresh.2
  | lock id => exact (untouched.locks id owned).trans fresh.2
  | condition id => exact (untouched.isBusy id owned).trans fresh.2
  | mutex | barrier => trivial

/-- After some objects have been created they are new, and no thread has moved. -/
theorem run_creates {objects : List (Object × Int)}
    (ran : Runs.run Threads.step kernel (objects.map fun pair => .create pair.1 pair.2) =
      .ok after) :
    after.place = kernel.place ∧
      (∀ object initial, Fresh kernel object initial → kernel.life object = .live →
        Fresh after object initial ∧ after.life object = .live) ∧
      ∀ pair ∈ objects, Fresh after pair.1 pair.2 ∧ after.life pair.1 = .live := by
  induction objects generalizing kernel with
  | nil =>
    obtain rfl := Except.ok.inj ran
    exact ⟨rfl, fun _ _ fresh live => ⟨fresh, live⟩, by simp⟩
  | cons first rest ih =>
    simp only [List.map_cons, Runs.run] at ran
    split at ran
    · rename_i middle created
      obtain ⟨place, kept, made⟩ := ih ran
      cases step_stepped created with
      | create current outside isPublic unborn =>
        have live : (kernel.construct first.1 first.2).life first.1 = .live := by simp
        refine ⟨place.trans (kernel.construct_place _ _), fun object initial fresh alive => ?_, ?_⟩
        · have differ : object ≠ first.1 := by
            rintro rfl
            simp [unborn] at alive
          have untouched : Untouched (fun other => decide (other = object)) kernel
              (kernel.construct first.1 first.2) :=
            untouched_construct (decide_eq_false differ.symm) _
          refine kept object initial (fresh.untouched untouched (decide_eq_true rfl)) ?_
          rw [Kernel.construct_life, Function.update_of_ne differ, alive]
        · intro pair member
          rcases List.mem_cons.mp member with rfl | later
          · exact kept _ _ (fresh_construct kernel _ _) live
          · exact made pair later
    · cases ran

/-- Objects that are created one after the other were not there, and are different. -/
theorem nodup_of_creates {objects : List (Object × Int)}
    (ran : Runs.run Threads.step kernel (objects.map fun pair => .create pair.1 pair.2) =
      .ok after) :
    (∀ object ∈ objects.map Prod.fst, kernel.life object = .unborn) ∧
      (objects.map Prod.fst).Nodup := by
  induction objects generalizing kernel with
  | nil => exact ⟨by simp, List.nodup_nil⟩
  | cons first rest ih =>
    simp only [List.map_cons, Runs.run] at ran
    split at ran
    · rename_i middle created
      obtain ⟨absent, distinct⟩ := ih ran
      cases step_stepped created with
      | create current outside isPublic unborn =>
        -- The first object is there from now on, so the others are not the same.
        have differ : ∀ object ∈ rest.map Prod.fst, object ≠ first.1 := by
          rintro object member rfl
          simpa using absent _ member
        refine ⟨fun object member => ?_, ?_⟩
        · rcases List.mem_cons.mp member with rfl | later
          · exact unborn
          · have before := absent object later
            rwa [Kernel.construct_life, Function.update_of_ne (differ object later)] at before
        · exact List.nodup_cons.mpr ⟨fun member => differ _ member rfl, distinct⟩
    · cases ran

/-- A module whose objects have just been made is in order, and they are new. -/
theorem Routines.Made.grounded {objects : List (Object × Int)} {main : Thread}
    (made : routines.Made objects main kernel) (isPublic : Public routines.owns) :
    Grounded routines.owns kernel ∧
      (∀ thread, (kernel.place thread).touches routines.owns = false) ∧
      ∀ pair ∈ objects, Fresh kernel pair.1 pair.2 := by
  obtain ⟨before, history, traced, unborn, ran⟩ := made.made
  obtain ⟨place, -, created⟩ := run_creates ran
  have later := traced.extend (Runs.guarded_of_forall (fun _ _ _ => trivial) _) ran
  refine ⟨⟨(simulated_of_traced later).scheduled, fun object owned => ?_⟩, fun thread => ?_,
    fun pair member => (created pair member).1⟩
  · obtain ⟨pair, member, rfl⟩ := List.mem_map.mp (made.owned object owned)
    exact (created pair member).2
  · rw [place]
    exact away_of_unborn isPublic traced unborn thread

end Nachos.Threads
