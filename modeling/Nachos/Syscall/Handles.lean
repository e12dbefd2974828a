import Nachos.Syscall.Effects
import Nachos.Threads.Monitor

/-! What system calls make of identifiers that are not open. -/

namespace Nachos.Syscall

open Threads (Kernel Object Life)

variable {console : Nat} {main : Thread} {os after : Os} {env : Env} {thread : Thread}
  {request : Request} {action : Action}

/-- The call names an identifier that is not open in the table concerned. -/
def Os.refuses (os : Os) : Request → Prop
  | .join id => os.threadTable.entry id = none
  | .read _ _ fd | .write _ _ fd | .close fd | .connect fd _ | .bind fd | .listen fd | .accept fd
  | .shutdown fd => os.fileTable.entry fd = none
  | .semDestroy id | .semSignal id | .semWait id => os.semTable.entry id = none
  | .lockDestroy id | .lockAcquire id | .lockRelease id => os.lockTable.entry id = none
  | .condDestroy id => os.condTable.entry id = none
  | .condSignal cond lock | .condWait cond lock | .condBroadcast cond lock =>
    os.condTable.entry cond = none ∨ os.lockTable.entry lock = none
  | .exit | .exec _ | .create _ | .open_ _ | .fork | .semCreate _ | .lockCreate | .condCreate
  | .socket _ _ => False

/-- The identifiers that the call looks up lie inside of their tables, and it is not `Connect`. -/
def Os.tolerates (os : Os) : Request → Prop
  | .join id | .read _ _ id | .write _ _ id | .close id | .bind id | .listen id | .accept id
  | .shutdown id | .semDestroy id | .semSignal id | .semWait id | .lockDestroy id
  | .lockAcquire id | .lockRelease id | .condDestroy id => 0 ≤ id ∧ id < 100
  | .condSignal cond lock | .condWait cond lock | .condBroadcast cond lock =>
    (0 ≤ cond ∧ cond < 100) ∧ (os.condTable.entry cond ≠ none → 0 ≤ lock ∧ lock < 100)
  | .connect _ _ => False
  | .exit | .exec _ | .create _ | .open_ _ | .fork | .semCreate _ | .lockCreate | .condCreate
  | .socket _ _ => True

/-- All that is stored in a synchronisation object. -/
def stored (kernel : Kernel) :
    Object → Life × List Thread × BitVec 32 × Bool × Option Thread × Nat × Nat
  | .semaphore name => (kernel.life (.semaphore name), kernel.queue (.semaphore name),
      kernel.value name, false, none, 0, 0)
  | .lock id => (kernel.life (.lock id), kernel.queue (.lock id), 0, kernel.available id,
      kernel.owner id, 0, 0)
  | .mutex id =>
    (kernel.life (.mutex id), kernel.queue (.mutex id), 0, kernel.mutexValue id, none, 0, 0)
  | .condition id =>
    (kernel.life (.condition id), kernel.queue (.condition id), 0, kernel.isBusy id, none, 0, 0)
  | .barrier id => (kernel.life (.barrier id), kernel.queue (.barrier id), 0, false, none,
      kernel.size id, kernel.count id)

/--
The call answers -1 and leaves the tables and the objects alone.

`Read` and `Write` unlock `canAccessConsole`, which they locked before they looked.
-/
structure Reported (console : Nat) (request : Request) (thread : Thread) (os after : Os) : Prop where
  answer : after.result thread = -1
  files : after.fileTable = os.fileTable
  threads : after.threadTable = os.threadTable
  tables : ∀ kind, after.table kind = os.table kind
  objects : ∀ object, (request.usesConsole = true → object ≠ .mutex console) →
    stored after.kernel object = stored os.kernel object

instance (os : Os) (request : Request) : Decidable (os.tolerates request) :=
  match request with
  | .join _ | .read _ _ _ | .write _ _ _ | .close _ | .bind _ | .listen _ | .accept _ | .shutdown _
  | .semDestroy _ | .semSignal _ | .semWait _ | .lockDestroy _ | .lockAcquire _ | .lockRelease _
  | .condDestroy _ | .condSignal _ _ | .condWait _ _ | .condBroadcast _ _ =>
    inferInstanceAs (Decidable (_ ∧ _))
  | .connect _ _ => .isFalse not_false
  | .exit | .exec _ | .create _ | .open_ _ | .fork | .semCreate _ | .lockCreate | .condCreate
  | .socket _ _ => .isTrue trivial

/-- A table answers for a closed identifier, if it can be asked. -/
theorem isOpened_of_closed {α : Type} {table : ControlTable α} {id : Int}
    (closed : table.entry id = none) :
    table.isOpened id = if 0 ≤ id ∧ id < 100 then .ok false else .error .assertion := by
  simp only [ControlTable.isOpened_eq, ControlTable.inTable_iff, closed, Option.isSome_none]

/-- A handler that uses one object answers -1 for a closed identifier. -/
theorem useObject_refused {kind : Kind} {id : Int} {call : Nat → Threads.Call}
    (closed : (os.table kind).entry id = none) :
    os.useObject thread kind id call =
      if 0 ≤ id ∧ id < 100 then .ok (os.ret thread (-1)) else .error .assertion := by
  rw [Os.useObject, isOpened_of_closed closed]
  split <;> rfl

/-- So does one that destroys it. -/
theorem destroyObject_refused {kind : Kind} {id : Int} (closed : (os.table kind).entry id = none) :
    os.destroyObject thread kind id =
      if 0 ≤ id ∧ id < 100 then .ok (os.ret thread (-1)) else .error .assertion := by
  rw [Os.destroyObject, isOpened_of_closed closed]
  split <;> rfl

/-- So does one that passes a descriptor on to the host. -/
theorem useDescriptor_refused {fd : Int} {proceed : Int → Except Fault Os}
    (closed : os.fileTable.entry fd = none) :
    os.useDescriptor thread fd proceed =
      if 0 ≤ fd ∧ fd < 100 then .ok (os.ret thread (-1)) else .error .assertion := by
  rw [Os.useDescriptor, isOpened_of_closed closed]
  split <;> rfl

/-- So does `Join`. -/
theorem nachOSJoin_refused {id : Int} (closed : os.threadTable.entry id = none) :
    os.nachOSJoin thread id =
      if 0 ≤ id ∧ id < 100 then .ok (os.ret thread (-1)) else .error .assertion := by
  rw [Os.nachOSJoin, isOpened_of_closed closed]
  split <;> rfl

/-- One that uses a condition and a lock looks the lock up only if the condition is open. -/
theorem useCondition_refused {cond lock : Int} {call : Nat → Nat → Threads.Call}
    (closed : os.condTable.entry cond = none ∨ os.lockTable.entry lock = none) :
    os.useCondition thread cond lock call =
      if (0 ≤ cond ∧ cond < 100) ∧ (os.condTable.entry cond ≠ none → 0 ≤ lock ∧ lock < 100) then
        .ok (os.ret thread (-1)) else .error .assertion := by
  unfold Os.useCondition
  cases used : os.condTable.entry cond with
  | none =>
    rw [isOpened_of_closed used]
    by_cases inside : 0 ≤ cond ∧ cond < 100
    · simp [inside, bind, Except.bind, pure, Except.pure]
    · simp [inside, bind, Except.bind]
  | some pointer =>
    have inside := ControlTable.inTable_of_entry used
    have bounds := ControlTable.inTable_iff.mp inside
    rw [ControlTable.isOpened_eq, if_pos inside, isOpened_of_closed (closed.resolve_left (by simp [used]))]
    by_cases within : 0 ≤ lock ∧ lock < 100
    · simp [used, bounds, within, bind, Except.bind, pure, Except.pure]
    · simp [used, bounds, within, bind, Except.bind]

/-- A call that finds an identifier closed answers -1, if the tables can be asked. -/
theorem handle_refused (env : Env) (thread : Thread) (refused : os.refuses request)
    (other : ∀ fd host, request ≠ .connect fd host) :
    os.handle env thread request =
      if os.tolerates request then .ok (os.ret thread (-1)) else .error .assertion := by
  cases request with
  | connect fd host => exact (other fd host rfl).elim
  | join id => exact nachOSJoin_refused refused
  | write buffer size fd =>
    rw [Os.handle, Os.nachOSWrite]
    split
    · rename_i input
      -- The console's input is refused without a look at the table.
      rw [if_pos (by simp [Os.tolerates, input, Os.consoleInput])]
    · exact useDescriptor_refused refused
  | read buffer size fd =>
    rw [Os.handle, Os.nachOSRead]
    split
    · rename_i output
      have inside : os.tolerates (.read buffer size fd) := by
        rcases output with rfl | rfl <;> simp [Os.tolerates, Os.consoleOutput, Os.consoleError]
      rw [if_pos inside]
    · exact useDescriptor_refused refused
  | close fd | bind fd | listen fd | accept fd | shutdown fd => exact useDescriptor_refused refused
  | semDestroy id | lockDestroy id | condDestroy id => exact destroyObject_refused refused
  | semSignal id | semWait id | lockAcquire id | lockRelease id => exact useObject_refused refused
  | condSignal cond lock | condWait cond lock | condBroadcast cond lock =>
    exact useCondition_refused refused
  | exit | exec | create | open_ | fork | semCreate | lockCreate | condCreate | socket =>
    exact refused.elim

/-- `Connect` answers 0 for a closed identifier. -/
theorem connect_refused {fd host : Int} (closed : os.fileTable.entry fd = none)
    (done : os.handle env thread (.connect fd host) = .ok after) : after.result thread = 0 := by
  obtain ⟨-, -, rest⟩ := Runs.bind_eq_ok.mp done
  obtain ⟨opened, asked, rest⟩ := Runs.bind_eq_ok.mp rest
  obtain ⟨-, rfl⟩ := isOpened_eq_ok asked
  simp only [closed, Option.isSome_none, Bool.false_eq_true, if_false] at rest
  cases rest
  simp [Os.ret]

/-- The mutex of the console is never deleted. -/
theorem console_of_reachable {guard : Os → Action → Prop}
    (reached : Runs.Reachable (step console) (Init console main) guard os) :
    os.Waits ∧ os.kernel.life (.mutex console) = .live := by
  refine reached.invariant (fun os => os.Waits ∧ os.kernel.life (.mutex console) = .live) ?_ ?_
  · exact fun os init => ⟨init.waits, init.console⟩
  · intro os action after both _ stepped
    obtain ⟨waits, live⟩ := both
    have moved := moved_of_step waits stepped
    refine ⟨waits.moved moved, ?_⟩
    have kept : ∀ below kernel, (∀ object, below = .delete object → object ≠ .mutex console) →
        Threads.step os.kernel below = .ok kernel → kernel.life (.mutex console) = .live := by
      intro below kernel deletes stepped
      exact Threads.life_of_spares stepped rfl (fun same => deletes _ same rfl) live
    cases moved with
    | handled caller free plain handled =>
      cases handled with
      | answered | leaked | registered | closed | shut => exact live
      | stepped below steps deletes ends keeps =>
        exact kept below _ (fun object same => (deletes object same).elim) steps.stepped
      | created kind initial steps keeps =>
        rw [Os.ret_kernel, Os.setTable_kernel]
        exact kept _ _ (by simp) steps
      | destroyed kind id object destroys used steps keeps =>
        rw [Os.ret_kernel, Os.setTable_kernel]
        refine kept _ _ (fun other same => ?_) steps
        cases same
        cases kind <;> simp [Kind.object]
    | locked caller free uses locked => exact kept _ _ (by simp) locked
    | unlocked status caller unlocked => exact kept _ _ (by simp) unlocked
    | scheduled below plain silent scheduled =>
      refine kept below _ (fun object same => ?_) scheduled
      rcases plain with rfl | rfl | rfl | ⟨semaphore, rfl⟩ <;> cases same

/-- Waking a thread changes what is stored in no other object. -/
theorem stored_wake {kernel : Kernel} {target object : Object} (differ : object ≠ target) :
    stored (kernel.wake target) object = stored kernel object := by
  unfold Kernel.wake
  split
  · rfl
  · cases object <;> simp [stored, Kernel.readyToRun, Function.update_of_ne differ]

/-- Unlocking a mutex changes what is stored in no other object. -/
theorem stored_unlockMutex {kernel : Kernel} {mutex : Nat} {object : Object}
    (differ : object ≠ .mutex mutex) :
    stored (kernel.unlockMutex mutex) object = stored kernel object := by
  refine Eq.trans ?_ (stored_wake differ)
  cases object with
  | mutex id =>
    have apart : id ≠ mutex := fun same => differ (congrArg _ same)
    simp [stored, Kernel.unlockMutex, Function.update_of_ne apart,
      (kernel.wake_members (.mutex mutex)).2.2]
  | semaphore | lock | condition | barrier => rfl

/-- The running thread can unlock the console. -/
theorem step_unlockMutex (caller : os.kernel.caller = some thread)
    (live : os.kernel.life (.mutex console) = .live) :
    Threads.step os.kernel (.call (.unlockMutex console)) =
      .ok (os.kernel.unlockMutex console) := by
  simp [Threads.step, caller, Kernel.usable, Threads.Call.objects, live, Kernel.perform]

/-- `Read` and `Write` go on behind `canAccessConsole->Lock()`. -/
theorem step_go {middle : Os} (caller : os.kernel.caller = some thread)
    (pending : os.pending thread = some request)
    (live : os.kernel.life (.mutex console) = .live)
    (handled : os.handle env thread request = .ok middle) (kernel : middle.kernel = os.kernel) :
    step console os (.go env) = .ok { middle with
      kernel := os.kernel.unlockMutex console
      pending := Function.update middle.pending thread none } := by
  have unlocked : Threads.step middle.kernel (.call (.unlockMutex console)) =
      .ok (os.kernel.unlockMutex console) := by
    rw [kernel]
    exact step_unlockMutex caller live
  simp [step, caller, pending, handled, Os.kernelStep, unlocked, bind, Except.bind, pure,
    Except.pure]

/-- A call that is not about the console is handled at once. -/
theorem step_syscall (caller : os.kernel.caller = some thread) (free : os.pending thread = none)
    (plain : request.usesConsole = false) :
    step console os (.syscall request env) = os.handle env thread request := by
  simp [step, caller, free, plain]

/-- `Read` and `Write` with a closed descriptor. -/
theorem reported_go (caller : os.kernel.caller = some thread)
    (pending : os.pending thread = some request) (uses : request.usesConsole = true)
    (live : os.kernel.life (.mutex console) = .live) (refused : os.refuses request) :
    (∃ after, step console os (.go env) = .ok after ∧
      Reported console request thread os after) ↔ os.tolerates request := by
  have other : ∀ fd host, request ≠ .connect fd host := by
    rintro fd host rfl
    cases uses
  have handled := handle_refused env thread refused other
  constructor
  · rintro ⟨after, stepped, -⟩
    by_contra intolerant
    rw [if_neg intolerant] at handled
    simp [step, caller, pending, handled, bind, Except.bind] at stepped
  · intro tolerated
    rw [if_pos tolerated] at handled
    refine ⟨_, step_go caller pending live handled rfl, ?_⟩
    refine ⟨by simp [Os.ret], rfl, rfl, fun kind => ?_, fun object differ => ?_⟩
    · cases kind <;> rfl
    · exact stored_unlockMutex (differ uses)

/-- The other calls with a closed identifier. -/
theorem reported_syscall (caller : os.kernel.caller = some thread)
    (free : os.pending thread = none) (plain : request.usesConsole = false)
    (refused : os.refuses request) :
    (∃ after, step console os (.syscall request env) = .ok after ∧
      Reported console request thread os after) ↔ os.tolerates request := by
  rw [step_syscall caller free plain]
  by_cases connects : ∃ fd host, request = .connect fd host
  · obtain ⟨fd, host, rfl⟩ := connects
    refine iff_of_false ?_ not_false
    rintro ⟨after, handled, reported⟩
    have zero := connect_refused refused handled
    simp [reported.answer] at zero
  · have handled := handle_refused env thread refused
      fun fd host same => connects ⟨fd, host, same⟩
    constructor
    · rintro ⟨after, done, -⟩
      by_contra intolerant
      rw [handled, if_neg intolerant] at done
      cases done
    · intro tolerated
      rw [if_pos tolerated] at handled
      refine ⟨_, handled, by simp [Os.ret], rfl, rfl, fun kind => by simp, fun _ _ => rfl⟩

/-- While nobody else is at the console, locking and unlocking it leaves no trace. -/
theorem unlockMutex_lockMutex {kernel : Kernel} (outside : kernel.place thread = .outside)
    (free : kernel.mutexValue console = true) (nobody : kernel.queue (.mutex console) = []) :
    (kernel.lockMutex thread console).unlockMutex console = kernel := by
  have locked : kernel.lockMutex thread console = { kernel with
      mutexValue := Function.update kernel.mutexValue console false } := by
    rw [Kernel.lockMutex, if_pos free, Kernel.leave, ← outside, Function.update_eq_self]
  have woken : (kernel.lockMutex thread console).wake (.mutex console) =
      kernel.lockMutex thread console := by
    rw [locked, Kernel.wake]
    simp [nobody]
  rw [Kernel.unlockMutex, woken, locked]
  simp only [Function.update_idem]
  rw [← free, Function.update_eq_self]

/-- `Read` and `Write` with a closed descriptor, while nobody else is at the console. -/
theorem run_refused (caller : os.kernel.caller = some thread) (idle : os.pending thread = none)
    (uses : request.usesConsole = true) (live : os.kernel.life (.mutex console) = .live)
    (refused : os.refuses request) (tolerated : os.tolerates request)
    (free : os.kernel.mutexValue console = true) (nobody : os.kernel.queue (.mutex console) = []) :
    Runs.run (step console) os [.syscall request env, .go env] = .ok (os.ret thread (-1)) := by
  obtain ⟨current, outside⟩ := Threads.Kernel.caller_eq_some.mp caller
  have locked : Threads.step os.kernel (.call (.lockMutex console)) =
      .ok (os.kernel.lockMutex thread console) := by
    simp [Threads.step, caller, Kernel.usable, Threads.Call.objects, live, Kernel.perform]
  let middle : Os := { os with
    kernel := os.kernel.lockMutex thread console
    pending := Function.update os.pending thread (some request) }
  have first : step console os (.syscall request env) = .ok middle := by
    simp [step, caller, idle, uses, Os.kernelStep, locked, bind, Except.bind, pure, Except.pure,
      middle]
  have still : middle.kernel.caller = some thread := by
    refine Threads.Kernel.caller_eq_some.mpr ⟨?_, ?_⟩
    · simpa [middle, Kernel.lockMutex, free, Kernel.leave] using current
    · simp [middle, Kernel.lockMutex, free, Kernel.leave]
  have alive : middle.kernel.life (.mutex console) = .live := by simpa [middle] using live
  -- The table of files is as it was when the call began.
  have handled : middle.handle env thread request = .ok (middle.ret thread (-1)) := by
    have refusing : middle.refuses request := by
      cases request with
      | read | write => exact refused
      | _ => cases uses
    have tolerating : middle.tolerates request := by
      cases request with
      | read | write => exact tolerated
      | _ => cases uses
    rw [handle_refused env thread refusing, if_pos tolerating]
    rintro fd host rfl
    cases uses
  have second := step_go still (Function.update_self ..) alive handled rfl
  simp only [Runs.run, first, second, Except.ok.injEq]
  have kernel : middle.kernel.unlockMutex console = os.kernel :=
    unlockMutex_lockMutex outside free nobody
  have pending : Function.update middle.pending thread none = os.pending := by
    simp only [middle, Function.update_idem]
    rw [← idle, Function.update_eq_self]
  simp only [Os.ret_pending, kernel, pending]
  rfl

/--
In every reachable state, a call with an identifier that is not open answers -1, and leaves the
tables and the objects alone, exactly when the identifiers it looks up lie inside of their tables
and it is not `Connect`.

`Read` and `Write` look behind `canAccessConsole->Lock()`; while nobody else is at the console, the
whole call changes nothing but the register.
-/
theorem refused_reported_iff
    (reached : Runs.Reachable (step console) (Init console main) (fun _ _ => True) os)
    (caller : os.kernel.caller = some thread) (refused : os.refuses request) :
    (request.usesConsole = false → os.pending thread = none → ∀ env,
      ((∃ after, step console os (.syscall request env) = .ok after ∧
        Reported console request thread os after) ↔ os.tolerates request)) ∧
    (request.usesConsole = true → os.pending thread = some request → ∀ env,
      ((∃ after, step console os (.go env) = .ok after ∧
        Reported console request thread os after) ↔ os.tolerates request)) ∧
    (request.usesConsole = true → os.pending thread = none → os.tolerates request →
      os.kernel.mutexValue console = true → os.kernel.queue (.mutex console) = [] → ∀ env,
      Runs.run (step console) os [.syscall request env, .go env] = .ok (os.ret thread (-1))) := by
  have live := (console_of_reachable reached).2
  refine ⟨fun plain free env => ?_, fun uses pending env => ?_, ?_⟩
  · exact reported_syscall caller free plain refused
  · exact reported_go caller pending uses live refused
  · intro uses idle tolerated free nobody env
    exact run_refused caller idle uses live refused tolerated free nobody

/-- The first process closes a descriptor that is not open. -/
theorem reported_close : firstOs.refuses (.close 7) ∧
    ∃ after, step 0 firstOs (.syscall (.close 7) Env.quiet) = .ok after ∧
      Reported 0 (.close 7) 0 firstOs after := by
  have refused : firstOs.refuses (.close 7) := show firstOs.fileTable.entry 7 = none by
    decide +kernel
  have reported := (refused_reported_iff (.start init_firstOs) rfl refused).1 rfl rfl Env.quiet
  exact ⟨refused, reported.mpr (by decide)⟩

/-- The answer of a failed `Open` is fatal to `Close`, and `Connect` reports success. -/
theorem unreported_close : Init 0 0 firstOs ∧ firstOs.kernel.caller = some 0 ∧
    firstOs.refuses (.close (-1)) ∧
    step 0 firstOs (.syscall (.close (-1)) Env.quiet) = .error .assertion ∧
    firstOs.refuses (.connect 7 0) ∧
    Runs.runsTo (step 0) firstOs [.syscall (.connect 7 0) Env.quiet]
      (fun after => after.result 0 = 0) = true := by
  have closed : firstOs.fileTable.entry (-1) = none := by decide +kernel
  refine ⟨init_firstOs, rfl, closed, ?_, show firstOs.fileTable.entry 7 = none by decide +kernel,
    by decide +kernel⟩
  rw [step_syscall rfl rfl rfl]
  exact useDescriptor_refused closed

end Nachos.Syscall
