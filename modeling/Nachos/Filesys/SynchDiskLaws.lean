import Nachos.Filesys.SynchDisk

/-! `SynchDisk` has one request at a time, and returns behind its interrupt. -/

namespace Nachos.Filesys.SynchDisk

open Threads

variable {lock semaphore : Nat} {main thread : Thread} {client next : Client Device Phase}
  {act : Act Operation Unit Nat} {phase : Phase} {place : Place} {device : Device}
  {operation : Operation} {id : Nat} {bytes : List Byte}

/-- Where a thread can sleep in each phase. -/
def rests (lock semaphore : Nat) : Phase → Place → Prop
  | .request _, place => place = .inAcquire lock
  | .finish _ _, place => place = .inP (.named semaphore)
  | .idle, _ | .wait _ _, _ => False

/-- A thread is inside from `lock->Acquire()` to `lock->Release()`. -/
def inside (phase : Phase) : Bool := !phase.isIdle

/-- How far a thread is with its request in each phase. -/
def stage : Phase → Stage Nat
  | .idle | .request _ => .none
  | .wait id _ => .issued id
  | .finish id _ => .awaited id

/-- A request that is accepted finds the disk idle, and makes it active. -/
theorem request_eq_ok {after : Device} (done : device.request operation = .ok (after, bytes)) :
    device.active = false ∧ after.active = true ∧
      after.scheduled = device.scheduled ++ [device.requests] ∧
      after.requests = device.requests + 1 := by
  cases operation with
  | readSector sector =>
    -- A busy disk would have asserted, so the request went through to the sector.
    simp only [Device.request, Device.readRequest] at done
    split at done
    · cases done
    · obtain ⟨read, -, rest⟩ := Runs.bind_eq_ok.mp done
      obtain ⟨rfl, rfl⟩ := Prod.mk.inj (Except.ok.inj rest)
      refine ⟨by simpa using ‹¬ device.active = true›, rfl, rfl, ?_⟩
      simp only [Device.requests]
      omega
  | writeSector sector written =>
    -- Writing is the same with another counter.
    simp only [Device.request, Device.writeRequest] at done
    split at done
    · cases done
    · obtain ⟨disk, -, rest⟩ := Runs.bind_eq_ok.mp done
      obtain ⟨rfl, rfl⟩ := Prod.mk.inj (Except.ok.inj rest)
      refine ⟨by simpa using ‹¬ device.active = true›, rfl, rfl, ?_⟩
      simp only [Device.requests]
      omega

/-- The statements of the two routines. -/
inductive Does (lock semaphore : Nat) : Act Operation Unit Nat → Phase → Device →
    Outcome Device Phase → Prop
  | acquire {device : Device} (operation : Operation) :
      Does lock semaphore (.enter operation) .idle device
        ⟨device, some (.acquire lock), .request operation⟩
  | request {device after : Device} {operation : Operation} {bytes : List Byte}
      (accepted : device.request operation = .ok (after, bytes)) :
      Does lock semaphore (.go ()) (.request operation) device
        ⟨after, none, .wait device.requests bytes⟩
  | wait {device : Device} {id : Nat} {bytes : List Byte} :
      Does lock semaphore (.go ()) (.wait id bytes) device
        ⟨device, some (.p semaphore), .finish id bytes⟩
  | release {device : Device} {id : Nat} {bytes : List Byte} :
      Does lock semaphore (.go ()) (.finish id bytes) device ⟨device, some (.release lock), .idle⟩

/-- Every statement is one of these. -/
theorem does_of_statement {outcome : Outcome Device Phase}
    (did : (synchDisk lock semaphore).statement act thread phase device = .ok outcome) :
    Does lock semaphore act phase device outcome := by
  cases act with
  | enter operation =>
    -- A call can only begin in a thread that is in neither routine.
    cases phase with
    | idle =>
      obtain rfl := Except.ok.inj did
      exact .acquire operation
    | request | wait | finish => cases did
  | go choice =>
    -- Each phase allows one statement.
    cases phase with
    | idle => cases did
    | request operation =>
      obtain ⟨⟨after, bytes⟩, accepted, rest⟩ := Runs.bind_eq_ok.mp did
      obtain rfl := Except.ok.inj rest
      exact .request accepted
    | wait id bytes =>
      obtain rfl := Except.ok.inj did
      exact .wait
    | finish id bytes =>
      obtain rfl := Except.ok.inj did
      exact .release
  -- Interrupts and other steps are not statements of a thread.
  | device | other => cases did

/-- Programs can name neither the lock nor the semaphore by another name. -/
theorem disciplined : Disciplined (synchDisk lock semaphore) (rests lock semaphore) where
  isPublic object owned := by
    simp only [synchDisk, Bool.or_eq_true, decide_eq_true_eq] at owned
    rcases owned with rfl | rfl <;> rfl
  calls act thread phase data outcome did call calls := by
    cases does_of_statement did with
    -- The caller sleeps at the lock at most, and its new phase allows it to.
    | acquire operation =>
      obtain rfl := Option.some.inj calls
      exact ⟨by simp [Call.objects, synchDisk], fun place sleeps => ⟨rfl, sleeps⟩⟩
    | request => cases calls
    -- It may sleep at the semaphore, and behind that it goes on to release the lock.
    | wait =>
      obtain rfl := Option.some.inj calls
      exact ⟨by simp [Call.objects, synchDisk], fun place sleeps => ⟨rfl, sleeps⟩⟩
    | release =>
      obtain rfl := Option.some.inj calls
      exact ⟨by simp [Call.objects, synchDisk], fun place sleeps => sleeps.elim⟩
  owned phase place rested := by
    cases phase with
    | request => simp [show place = .inAcquire lock from rested, Place.touches, synchDisk]
    | finish => simp [show place = .inP (.named semaphore) from rested, Place.touches, synchDisk]
    | idle | wait => exact rested.elim
  -- No phase waits at a condition, so no lock is taken back from inside of one.
  reacquires phase condition held rested := by
    cases phase with
    | request => cases rested
    | finish => cases rested
    | idle | wait => exact rested.elim

/-- The lock is taken and given back by turns. -/
theorem locking : Locking (synchDisk lock semaphore) lock inside where
  owned := by simp [synchDisk]
  silent act thread phase data outcome did silent := by
    -- The only statement without a call stays inside.
    cases does_of_statement did with
    | request => rfl
    | acquire | wait | release => cases silent
  acquires act thread phase data outcome did calls := by
    cases does_of_statement did with
    | acquire => exact ⟨rfl, rfl⟩
    | request | wait | release => cases calls
  releases act thread phase data outcome did calls := by
    cases does_of_statement did with
    | release => exact ⟨rfl, rfl⟩
    | acquire | request | wait => cases calls
  waits act thread phase data outcome condition did calls := by
    cases does_of_statement did <;> cases calls
  others act thread phase data outcome call did calls spares := by
    -- Every call that is neither of these two leaves the thread inside.
    cases does_of_statement did with
    | acquire =>
      obtain rfl := Option.some.inj calls
      exact absurd rfl spares
    | request => cases calls
    | wait => rfl
    | release =>
      obtain rfl := Option.some.inj calls
      exact absurd rfl spares

/-- Each request is made under the lock, and completed by its interrupt. -/
theorem serving : Serving (synchDisk lock semaphore) (rests lock semaphore) semaphore inside stage
    Device.scheduled where
  owned := by simp [synchDisk]
  busy phase within := by
    show phase.isIdle = false
    simpa [inside] using within
  -- Outside of the routines no request is made.
  within phase out := by
    cases phase with
    | idle => rfl
    | request | wait | finish => cases out
  sleeps phase place rested := by
    -- The semaphore is waited at behind the request only.
    cases phase with
    | request => simp [show place = .inAcquire lock from rested, stage]
    | finish => simp [show place = .inP (.named semaphore) from rested, stage]
    | idle | wait => exact rested.elim
  statements act thread phase data outcome did := by
    cases does_of_statement did with
    -- Taking the lock has nothing to do with requests.
    | acquire operation => exact .keep rfl rfl (by simp [Call.objects])
    | request accepted => exact .issue _ rfl rfl rfl rfl (request_eq_ok accepted).2.2.1
    | wait => exact .await _ rfl rfl rfl rfl
    | release => exact .finish _ rfl rfl (by simp [Call.objects]) rfl
  devices id data after signal handled := by
    change handleInterrupt semaphore id data = _ at handled
    unfold handleInterrupt at handled
    -- The interrupt takes its request off the list and signals, or there is no such request.
    split at handled
    · obtain ⟨rfl, rfl⟩ := Prod.mk.inj (Except.ok.inj handled)
      exact .inl ⟨id, ‹_›, rfl, rfl⟩
    · cases handled

/-- The requests of a history, by their numbers. -/
def requests (history : List Event) : List Nat :=
  history.filterMap fun
    | .requested _ id _ => some id
    | .completed _ | .returned _ _ _ => none

/-- A thread has made a request, and its interrupt has come behind that. -/
def Done (history : List Event) (thread : Thread) (id : Nat) : Prop :=
  ∃ operation before between later, history =
    before ++ .requested thread id operation :: between ++ .completed id :: later

/-- What is done stays done. -/
theorem Done.append {history : List Event} (done : Done history thread id) (more : List Event) :
    Done (history ++ more) thread id := by
  obtain ⟨operation, before, between, later, rfl⟩ := done
  exact ⟨operation, before, between, later ++ more, by simp⟩

/-- The interrupt of a request that has been made completes it. -/
theorem done_of_completed {history : List Event}
    (made : .requested thread id operation ∈ history) :
    Done (history ++ [.completed id]) thread id := by
  -- The request is somewhere in the history, and its interrupt comes last.
  obtain ⟨before, between, rfl⟩ := List.append_of_mem made
  exact ⟨operation, before, between, [], by simp⟩

/-- Every call returns behind the interrupt of its own request. -/
def ReturnsDone (history : List Event) : Prop :=
  ∀ earlier thread id bytes later, history = earlier ++ .returned thread id bytes :: later →
    Done earlier thread id

/-- A history that ends without a return keeps the order. -/
theorem ReturnsDone.quiet {history : List Event} {event : Event} (returns : ReturnsDone history)
    (silent : ∀ thread id bytes, event ≠ .returned thread id bytes) :
    ReturnsDone (history ++ [event]) := by
  intro earlier thread id bytes later split
  -- Either the return is the last event, or it was one before.
  rcases List.eq_nil_or_concat' later with rfl | ⟨shorter, last, rfl⟩
  · have same := (List.append_inj' split rfl).2
    simp only [List.cons.injEq, and_true] at same
    exact (silent thread id bytes same).elim
  · rw [← List.cons_append, ← List.append_assoc] at split
    exact returns earlier thread id bytes shorter (List.append_inj' split rfl).1

/-- One that ends with the return from a request that is done keeps it, too. -/
theorem ReturnsDone.returned {history : List Event} (returns : ReturnsDone history)
    (done : Done history thread id) : ReturnsDone (history ++ [.returned thread id bytes]) := by
  intro earlier other number buffer later split
  rcases List.eq_nil_or_concat' later with rfl | ⟨shorter, last, rfl⟩
  · -- The last event is this return, and its request is done.
    obtain ⟨rfl, same⟩ := List.append_inj' split rfl
    simp only [List.cons.injEq, Event.returned.injEq, and_true] at same
    obtain ⟨rfl, rfl, -⟩ := same
    exact done
  · -- Earlier returns have their interrupts in the history before them.
    rw [← List.cons_append, ← List.append_assoc] at split
    exact returns earlier other number buffer shorter (List.append_inj' split rfl).1

/-- The request that a thread has made and not yet returned from. -/
def current : Phase → Option Nat
  | .idle | .request _ => none
  | .wait id _ | .finish id _ => some id

/-- The disk is active while an interrupt is to come, and the history tells of every request. -/
structure Recorded (client : Client Device Phase) (history : List Event) : Prop where
  active : client.data.active = true ↔ client.data.scheduled ≠ []
  made : ∀ thread id, current (client.phase thread) = some id →
    ∃ operation, .requested thread id operation ∈ history
  done : ∀ thread id, current (client.phase thread) = some id → id ∉ client.data.scheduled →
    Done history thread id
  numbered : ∀ id ∈ requests history, id < client.data.requests
  distinct : (requests history).Nodup
  returns : ReturnsDone history

/-- Steps that leave the requests alone add nothing to the history. -/
theorem Recorded.frame {history : List Event} {kernel : Kernel} {later : Phase}
    (recorded : Recorded client history)
    (same : ∀ id, current later = some id → current (client.phase thread) = some id) :
    Recorded ⟨kernel, client.data, Function.update client.phase thread later⟩ history := by
  -- A thread that has a request now had the same one before.
  have before (other : Thread) (id : Nat)
      (is : current (Function.update client.phase thread later other) = some id) :
      current (client.phase other) = some id := by
    by_cases mine : other = thread
    · rw [mine, Function.update_self] at is
      exact mine ▸ same id is
    · rwa [Function.update_of_ne mine] at is
  exact ⟨recorded.active, fun other id is => recorded.made other id (before other id is),
    fun other id is => recorded.done other id (before other id is), recorded.numbered,
    recorded.distinct, recorded.returns⟩

/-- A request has a new number, and nothing is pending before it. -/
theorem Recorded.request {history : List Event} {after : Device}
    (recorded : Recorded client history)
    (accepted : client.data.request operation = .ok (after, bytes))
    (empty : client.data.scheduled = []) :
    Recorded ⟨client.kernel, after,
        Function.update client.phase thread (.wait client.data.requests bytes)⟩
      (history ++ [.requested thread client.data.requests operation]) := by
  obtain ⟨-, active, scheduled, count⟩ := request_eq_ok accepted
  rw [empty, List.nil_append] at scheduled
  have numbers : requests (history ++ [.requested thread client.data.requests operation]) =
      requests history ++ [client.data.requests] := by simp [requests]
  have before (other : Thread) (differ : other ≠ thread) (id : Nat)
      (is : current (Function.update client.phase thread
        (.wait client.data.requests bytes) other) = some id) :
      current (client.phase other) = some id := by
    rwa [Function.update_of_ne differ] at is
  refine ⟨by simp [active, scheduled], fun other id is => ?_, fun other id is absent => ?_,
    fun id member => ?_, ?_, recorded.returns.quiet (by simp)⟩
  · -- `made`: the thread has just made its own request, the others have made theirs before.
    by_cases mine : other = thread
    · subst mine
      simp only [Function.update_self, current, Option.some.injEq] at is
      exact ⟨operation, by simp [is]⟩
    · obtain ⟨earlier, member⟩ := recorded.made other id (before other mine id is)
      exact ⟨earlier, List.mem_append_left _ member⟩
  · -- `done`: the new request is pending, and the older ones are done because nothing was pending.
    by_cases mine : other = thread
    · subst mine
      simp only [Function.update_self, current, Option.some.injEq] at is
      simp [scheduled, is] at absent
    · refine (recorded.done other id (before other mine id is) ?_).append _
      simp [empty]
  · -- `numbered`: the counter has gone up by one.
    rw [numbers, List.mem_append, List.mem_singleton] at member
    show id < after.requests
    rw [count]
    rcases member with old | rfl
    · have small := recorded.numbered id old
      omega
    · omega
  · -- `distinct`: all numbers so far are below the new one.
    rw [numbers, List.nodup_append]
    refine ⟨recorded.distinct, List.nodup_singleton _, ?_⟩
    rintro id member _ new rfl
    have small := recorded.numbered id member
    rw [List.mem_singleton.mp new] at small
    exact lt_irrefl _ small

/-- An interrupt completes the request that is pending. -/
theorem Recorded.complete {history : List Event} {kernel : Kernel}
    (recorded : Recorded client history) (only : client.data.scheduled = [id]) :
    Recorded ⟨kernel, { client.data with
        active := false
        scheduled := client.data.scheduled.erase id }, client.phase⟩
      (history ++ [.completed id]) := by
  have numbers : requests (history ++ [.completed id]) = requests history := by simp [requests]
  refine ⟨by simp [only], fun other number is => ?_, fun other number is _ => ?_,
    fun number member => ?_, numbers.symm ▸ recorded.distinct, recorded.returns.quiet (by simp)⟩
  · -- `made`: a completion takes no request back.
    obtain ⟨operation, member⟩ := recorded.made other number is
    exact ⟨operation, List.mem_append_left _ member⟩
  · -- `done`: the one that was pending is done now.
    obtain ⟨operation, member⟩ := recorded.made other number is
    by_cases same : number = id
    · subst same
      exact done_of_completed member
    · exact (recorded.done other number is (by simp [only, same])).append _
  · -- `numbered`: there is no new number.
    rw [numbers] at member
    exact recorded.numbered number member

/-- A thread returns from a request that is done. -/
theorem Recorded.return_ {history : List Event} {kernel : Kernel}
    (recorded : Recorded client history) (is : client.phase thread = .finish id bytes)
    (empty : client.data.scheduled = []) :
    Recorded ⟨kernel, client.data, Function.update client.phase thread .idle⟩
      (history ++ [.returned thread id bytes]) := by
  have numbers : requests (history ++ [.returned thread id bytes]) = requests history := by
    simp [requests]
  -- A thread that goes on behind its `P` finds its request off the list, so it is done.
  have done := recorded.done thread id (by rw [is]; rfl) (by simp [empty])
  -- The thread has no request any more, and the others keep theirs.
  have before : Recorded ⟨kernel, client.data, Function.update client.phase thread .idle⟩ history :=
    recorded.frame fun number is => by cases is
  refine ⟨before.active, fun other number is => ?_, fun other number is absent => ?_,
    fun number member => ?_, numbers.symm ▸ recorded.distinct, recorded.returns.returned done⟩
  · obtain ⟨operation, member⟩ := before.made other number is
    exact ⟨operation, List.mem_append_left _ member⟩
  · exact (before.done other number is absent).append _
  · rw [numbers] at member
    exact recorded.numbered number member

/-- The lock, the semaphore and the requests of a synchronous disk are in order. -/
abbrev InOrder (lock semaphore : Nat) (client : Client Device Phase) : Prop :=
  Served (synchDisk lock semaphore) (rests lock semaphore) lock semaphore inside stage
    Device.scheduled client

/-- Every step is told as it is. -/
theorem Recorded.step {history : List Event} (recorded : Recorded client history)
    (inOrder : InOrder lock semaphore client)
    (moves : Moves (synchDisk lock semaphore) (rests lock semaphore) client act next) :
    Recorded next (history ++ observe client act next) := by
  cases moves with
  -- A statement without a call: only the request itself.
  | @statement _ thread outcome current outside did silent =>
    have does := does_of_statement did
    generalize is : client.phase thread = phase at does
    generalize held : client.data = device at does
    cases does with
    | @request _ after operation bytes accepted =>
      subst held
      -- Nobody else has a request on its way, since the lock is held.
      have empty := (inOrder.quiet serving (by simp [is, inside, Phase.isIdle]) outside
        (by simp [Client.owed, is, stage, Stage.owes])).1
      have seen : observe client (.go ()) ⟨client.kernel, after, Function.update client.phase thread
          (.wait client.data.requests bytes)⟩ =
          [.requested thread client.data.requests operation] := by
        simp [observe, current, is]
      rw [seen]
      exact recorded.request accepted empty
    | acquire | wait | release => cases silent
  -- A statement that calls a primitive of the kernel.
  | @call _ thread outcome call kernel current outside did calls performed =>
    have does := does_of_statement did
    generalize is : client.phase thread = phase at does
    generalize held : client.data = device at does
    cases does with
    | acquire operation =>
      subst held
      rw [show history ++ observe client (.enter operation) _ = history by simp [observe]]
      -- The thread is about to make a request, and has none yet.
      exact recorded.frame fun id also => by cases also
    | request => cases calls
    | @wait _ id bytes =>
      subst held
      rw [show history ++ observe client (.go ()) _ = history by simp [observe, current, is]]
      -- It still has the request that it waits for.
      exact recorded.frame fun number also => by rw [is]; exact also
    | @release _ id bytes =>
      subst held
      -- Behind the `P` nothing is pending any more.
      have empty := (inOrder.quiet serving (by simp [is, inside, Phase.isIdle]) outside
        (by simp [Client.owed, is, stage, Stage.owes, outside])).1
      rw [show observe client (.go ()) _ = [.returned thread id bytes] by
        simp [observe, current, is]]
      exact recorded.return_ is empty
  -- Every interrupt of the disk signals, so there is none of the other kind.
  | handle settled handled =>
    change handleInterrupt semaphore _ _ = _ at handled
    unfold handleInterrupt at handled
    split at handled <;> cases handled
  | @raise id data other settled handled =>
    change handleInterrupt semaphore _ _ = _ at handled
    unfold handleInterrupt at handled
    split at handled
    · rename_i member
      obtain ⟨rfl, -⟩ := Prod.mk.inj (Except.ok.inj handled)
      -- The interrupt comes for a pending request, which is the only one.
      exact recorded.complete ((inOrder.serial.flying member).1)
    · cases handled
  -- A thread that wakes up has done nothing to the disk.
  | resume current busy rested resumed =>
    rw [show history ++ observe client (.other .resume) _ = history by simp [observe]]
    exact ⟨recorded.active, recorded.made, recorded.done, recorded.numbered, recorded.distinct,
      recorded.returns⟩
  -- Nor have other parts of the system.
  | @other action kernel stepped untouched still =>
    rw [show history ++ observe client (.other action) _ = history by simp [observe]]
    exact ⟨recorded.active, recorded.made, recorded.done, recorded.numbered, recorded.distinct,
      recorded.returns⟩

/-- A new disk is in order, and has no history. -/
theorem inOrder_of_init (init : Init lock semaphore main client) :
    InOrder lock semaphore client ∧ Recorded client [] := by
  obtain ⟨-, away, fresh⟩ := init.made.grounded disciplined.isPublic
  -- The constructor makes the semaphore with value 0.
  have value : client.kernel.value (.named semaphore) = 0 :=
    (fresh (.semaphore (.named semaphore), 0) (by simp)).2
  refine ⟨.start locking serving away ?_ value init.scheduled, ?_⟩
  · intro thread
    rw [init.idle]
    rfl
  · exact ⟨by simp [init.active, init.scheduled], by simp [init.idle, current],
      by simp [init.idle, current], by simp [requests], by simp [requests],
      fun earlier thread id bytes later split => by simp at split⟩

/-- The state of a synchronous disk after any run. -/
theorem inOrder_of_traced {history : List Event}
    (traced : Runs.Traced (synchDisk lock semaphore).step (Init lock semaphore main)
      (fun _ _ => True) observe client history) :
    InOrder lock semaphore client ∧ Recorded client history := by
  refine traced.invariant (fun client history =>
    InOrder lock semaphore client ∧ Recorded client history) ?_ ?_
  · exact fun client init => inOrder_of_init init
  · intro client act next history both _ stepped
    obtain ⟨inOrder, recorded⟩ := both
    -- The steps are split into those of the disk and those of the rest of the kernel.
    have moves := inOrder.positioned.moves disciplined stepped
    exact ⟨inOrder.step disciplined locking serving moves, recorded.step inOrder moves⟩

/--
The disk is used by one thread at a time, in whatever order threads and interrupts come.

No request is made while one is active, the semaphore is zero or one, every request has a number
of its own, and every call returns behind the interrupt of its own request.
-/
theorem serialises {history : List Event}
    (traced : Runs.Traced (synchDisk lock semaphore).step (Init lock semaphore main)
      (fun _ _ => True) observe client history) :
    (∀ thread operation, client.kernel.caller = some thread →
      client.phase thread = .request operation → client.data.active = false) ∧
    (client.kernel.value (.named semaphore) = 0 ∨ client.kernel.value (.named semaphore) = 1) ∧
    (requests history).Nodup ∧ ReturnsDone history := by
  obtain ⟨inOrder, recorded⟩ := inOrder_of_traced traced
  refine ⟨fun thread operation caller is => ?_, inOrder.value, recorded.distinct,
    recorded.returns⟩
  -- The thread holds the lock and runs, so no request of another thread is on its way.
  obtain ⟨-, outside⟩ := Kernel.caller_eq_some.mp caller
  have empty := (inOrder.quiet serving (by simp [is, inside, Phase.isIdle]) outside
    (by simp [Client.owed, is, stage, Stage.owes])).1
  rw [← Bool.not_eq_true, recorded.active]
  simp [empty]

/-- The disk of the first thread. -/
def firstDisk : Client Device Phase where
  kernel := (firstKernel.construct (.semaphore (.named 0)) 0).construct (.lock 0) 0
  data := ⟨false, fun _ => 0, 0, 0, []⟩
  phase := fun _ => .idle

/-- Its constructor has run. -/
theorem init_firstDisk : Init 0 0 0 firstDisk where
  made := by
    -- The two objects are the first ones of their kinds.
    refine ⟨fun object owned => ?_, firstKernel, [], .start boot_firstKernel, fun _ _ => rfl, rfl⟩
    simp only [synchDisk, Bool.or_eq_true, decide_eq_true_eq] at owned
    rcases owned with rfl | rfl <;> simp
  idle := fun _ => rfl
  active := rfl
  scheduled := rfl

/-- One thread reads a sector while another one waits to write it. -/
def readThenWrite : List (Act Operation Unit Nat) :=
  [.other (.fork 1), .enter (.readSector 3), .go (), .go (), .enter (.writeSector 3 [7]),
    .device 0, .other .dispatch, .other .resume, .go (), .other .yield, .other .resume, .go ()]

/-- The first thread has returned behind its interrupt, and the second one is to come. -/
theorem serialises_readThenWrite : ∃ client,
    Runs.run (synchDisk 0 0).step firstDisk readThenWrite = .ok client ∧
      (client.kernel.value (.named 0) = 0 ∨ client.kernel.value (.named 0) = 1) ∧
      client.data.scheduled = [1] ∧
      Done [.requested 0 0 (.readSector 3), .completed 0] 0 0 := by
  -- The run ends while the request of the second thread is pending.
  obtain ⟨client, ran, checked⟩ := Runs.exists_of_runsTo
    (show Runs.runsTo (synchDisk 0 0).step firstDisk readThenWrite
      (fun client => client.data.scheduled = [1]) = true by decide +kernel)
  have start : Runs.Traced (synchDisk 0 0).step (Init 0 0 0) (fun _ _ => True) observe firstDisk
      [] := .start init_firstDisk
  have traced := start.extend (Runs.guarded_of_forall (fun _ _ _ => trivial) firstDisk) ran
  obtain ⟨-, value, -, returns⟩ := serialises traced
  -- The first thread has returned in front of the second request.
  have recorded : [] ++ Runs.record (synchDisk 0 0).step observe firstDisk readThenWrite =
      [.requested 0 0 (.readSector 3), .completed 0] ++ .returned 0 0 (List.replicate 128 0) ::
        [.requested 1 1 (.writeSector 3 [7])] := by decide +kernel
  exact ⟨client, ran, value, of_decide_eq_true checked, returns _ _ _ _ _ recorded⟩

end Nachos.Filesys.SynchDisk
