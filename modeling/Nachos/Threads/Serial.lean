import Nachos.Threads.Exclusion

/-! Requests to a device, one at a time, that are waited for at a semaphore. -/

namespace Nachos.Threads

variable {Id : Type}

/-- How far a thread is with a request of its own. -/
inductive Stage (Id : Type) where
  | none
  /-- The request has been made. -/
  | issued (id : Id)
  /-- `P` has been called to wait for its completion. -/
  | awaited (id : Id)

/-- The request whose completion a thread has still to take from the semaphore. -/
def Stage.owes (semaphore : Nat) (place : Place) : Stage Id → Option Id
  | .none => Option.none
  | .issued id => some id
  -- Behind the `P` there is nothing to take any more.
  | .awaited id => if place = .inP (.named semaphore) then some id else Option.none

variable {Data Phase Entry Choice Device : Type}

/-- What a statement does about requests. -/
inductive Effect (semaphore : Nat) (inside : Phase → Bool) (stage : Phase → Stage Id)
    (pending : Data → List Id) (phase : Phase) (data : Data) (outcome : Outcome Data Phase) : Prop
  /-- Nothing. -/
  | keep (same : stage outcome.phase = stage phase)
      (still : pending outcome.data = pending data)
      (avoids : ∀ call ∈ outcome.call, .semaphore (.named semaphore) ∉ call.objects)
  /-- It makes one. -/
  | issue (id : Id) (within : inside phase = true) (before : stage phase = .none)
      (later : stage outcome.phase = .issued id) (silent : outcome.call = none)
      (adds : pending outcome.data = pending data ++ [id])
  /-- It waits for the completion. -/
  | await (id : Id) (before : stage phase = .issued id)
      (later : stage outcome.phase = .awaited id) (calls : outcome.call = some (.p semaphore))
      (still : pending outcome.data = pending data)
  /-- It goes on behind the completion. -/
  | finish (id : Id) (before : stage phase = .awaited id) (later : stage outcome.phase = .none)
      (avoids : ∀ call ∈ outcome.call, .semaphore (.named semaphore) ∉ call.objects)
      (still : pending outcome.data = pending data)

/-- A module makes its requests under a lock, and is told of each completion by the semaphore. -/
structure Serving (routines : Routines Data Phase Entry Choice Device) (rests : Phase → Place → Prop)
    (semaphore : Nat) (inside : Phase → Bool) (stage : Phase → Stage Id)
    (pending : Data → List Id) [DecidableEq Id] : Prop where
  owned : routines.owns (.semaphore (.named semaphore)) = true
  busy : ∀ phase, inside phase = true → routines.idle phase = false
  within : ∀ phase, inside phase = false → stage phase = .none
  /-- Only a thread that waits for its completion sleeps at the semaphore, and nowhere else. -/
  sleeps : ∀ phase place, rests phase place →
    (place = .inP (.named semaphore) ↔ ∃ id, stage phase = .awaited id) ∧
      ∀ id, stage phase ≠ .issued id
  statements : ∀ act thread phase data outcome,
    routines.statement act thread phase data = .ok outcome →
      Effect semaphore inside stage pending phase data outcome
  /-- An interrupt completes a request that is pending, and signals the semaphore, or neither. -/
  devices : ∀ device data after signal, routines.device device data = .ok (after, signal) →
    (∃ id ∈ pending data, pending after = (pending data).erase id ∧ signal = some semaphore) ∨
      pending after = pending data ∧ signal ≠ some semaphore

/-- There is one request at most, and it is pending or its completion is in the semaphore. -/
structure Serial (semaphore : Nat) (kernel : Kernel) (pending : List Id)
    (owed : Thread → Option Id) : Prop where
  calm : (∀ thread, owed thread = none) → pending = [] ∧ kernel.value (.named semaphore) = 0
  owing : ∀ thread id, owed thread = some id →
    pending = [id] ∧ kernel.value (.named semaphore) = 0 ∨
      pending = [] ∧ kernel.value (.named semaphore) = 1

/-- What every thread has still to take from the semaphore. -/
def Client.owed (client : Client Data Phase) (semaphore : Nat) (stage : Phase → Stage Id)
    (thread : Thread) : Option Id :=
  (stage (client.phase thread)).owes semaphore (client.kernel.place thread)

variable [DecidableEq Id] {routines : Routines Data Phase Entry Choice Device}
  {rests : Phase → Place → Prop} {lock semaphore : Nat} {inside : Phase → Bool}
  {stage : Phase → Stage Id} {pending : Data → List Id} {client next : Client Data Phase}
  {act : Act Entry Choice Device} {thread : Thread} {kernel after : Kernel} {id : Id}

omit [DecidableEq Id] in
/-- Steps that change neither the semaphore nor the requests nor what is owed. -/
theorem Serial.frame {before later : List Id} {owed owed' : Thread → Option Id}
    (serial : Serial semaphore kernel before owed)
    (value : after.value (.named semaphore) = kernel.value (.named semaphore))
    (pending : later = before) (same : ∀ thread, owed' thread = owed thread) :
    Serial semaphore after later owed' where
  -- The value, the requests and what is owed are the same, so both parts say what they said.
  calm quiet := by
    rw [pending, value]
    exact serial.calm fun thread => same thread ▸ quiet thread
  owing thread id owes := by
    rw [pending, value]
    exact serial.owing thread id (same thread ▸ owes)

/-- A thread that has to take a completion is inside. -/
theorem Serving.within_of_owed (serving : Serving routines rests semaphore inside stage pending)
    (owes : client.owed semaphore stage thread = some id) :
    inside (client.phase thread) = true := by
  rw [← Bool.not_eq_false]
  intro out
  -- Outside of the lock no thread is at any stage of a request.
  simp [Client.owed, serving.within _ out, Stage.owes] at owes

/-- It is not on its way to the lock. -/
theorem Serving.away_of_owed (serving : Serving routines rests semaphore inside stage pending)
    (positioned : Positioned routines rests client.kernel client.phase)
    (owes : client.owed semaphore stage thread = some id) :
    (client.kernel.place thread).reacquires lock = false := by
  -- A thread that is inside goes on, or rests at a place its phase allows.
  rcases positioned.busy thread (serving.busy _ (serving.within_of_owed owes)) with
    outside | rested
  · rw [outside]
    rfl
  · obtain ⟨there, issues⟩ := serving.sleeps _ _ rested
    -- It does not rest between making its request and waiting for it.
    cases is : stage (client.phase thread) with
    | none => simp [Client.owed, is, Stage.owes] at owes
    | issued id => exact (issues id is).elim
    | awaited id =>
      rw [there.mpr ⟨id, is⟩]
      rfl

/-- While a thread goes on inside, no other one has to take a completion. -/
theorem Serving.alone (serving : Serving routines rests semaphore inside stage pending)
    (positioned : Positioned routines rests client.kernel client.phase)
    (exclusive : Exclusive lock client.kernel fun thread => inside (client.phase thread) = true)
    (within : inside (client.phase thread) = true)
    (outside : client.kernel.place thread = .outside) {other : Thread} (differ : other ≠ thread) :
    client.owed semaphore stage other = none := by
  -- Two threads inside that both go on would share the lock.
  rw [Option.eq_none_iff_forall_ne_some]
  intro id owes
  have here : (client.kernel.place thread).reacquires lock = false := by
    rw [outside]
    rfl
  exact differ (exclusive.unique within here (serving.within_of_owed owes)
    (serving.away_of_owed positioned owes))

/-- A thread that goes on inside and has nothing to take finds nothing pending. -/
theorem Serial.quiet (serial : Serial semaphore client.kernel (pending client.data)
      (client.owed semaphore stage))
    (serving : Serving routines rests semaphore inside stage pending)
    (positioned : Positioned routines rests client.kernel client.phase)
    (exclusive : Exclusive lock client.kernel fun thread => inside (client.phase thread) = true)
    (within : inside (client.phase thread) = true)
    (outside : client.kernel.place thread = .outside)
    (nothing : client.owed semaphore stage thread = none) :
    pending client.data = [] ∧ client.kernel.value (.named semaphore) = 0 := by
  -- The thread itself has nothing to take, and no other one has.
  refine serial.calm fun other => ?_
  by_cases same : other = thread
  · rw [same, nothing]
  · exact serving.alone positioned exclusive within outside same

/-- A primitive that does not name the semaphore leaves its value and does not sleep at it. -/
theorem perform_avoids {call : Call} (outside : kernel.place thread = .outside)
    (avoids : .semaphore (.named semaphore) ∉ call.objects)
    (performed : kernel.perform thread call = .ok after) :
    after.value (.named semaphore) = kernel.value (.named semaphore) ∧
      after.place thread ≠ .inP (.named semaphore) := by
  constructor
  · -- The primitive touches its own objects, and the semaphore is none of them.
    have elsewhere : (Action.call call).avoids
        (fun object => decide (object = .semaphore (.named semaphore))) = true := by
      simp only [Action.avoids, List.all_eq_true, Bool.not_eq_true', decide_eq_false_iff_not]
      exact fun object member same => avoids (same ▸ member)
    have untouched := untouched_perform elsewhere outside performed
    exact Kernel.value_eq_of_units (untouched.units _ (decide_eq_true rfl))
  · -- A thread sleeps at the semaphore only after `P` on it.
    intro there
    rcases place_of_perform outside performed with same | sleeps
    · rw [same] at there
      cases there
    · rw [there] at sleeps
      cases call with
      | p other =>
        obtain rfl : semaphore = other := by simpa [Call.sleeps] using sleeps
        exact avoids (by simp [Call.objects])
      | _ => simp [Call.sleeps] at sleeps

/-- A thread that goes on elsewhere leaves the value of the semaphore. -/
theorem resume_avoids (elsewhere : kernel.place thread ≠ .inP (.named semaphore))
    (resumed : kernel.resume thread (kernel.place thread) = .ok after) :
    after.value (.named semaphore) = kernel.value (.named semaphore) := by
  -- It touches the object at which it slept, and the semaphore is another one.
  have away : (kernel.place thread).touches
      (fun object => decide (object = .semaphore (.named semaphore))) = false := by
    cases placed : kernel.place thread with
    | inP other =>
      rw [placed] at elsewhere
      simpa [Place.touches] using elsewhere
    | outside | finished | inAcquire | inLock | inWait | inBarrier => simp [Place.touches]
  exact Kernel.value_eq_of_units ((untouched_resume away resumed).units _ (decide_eq_true rfl))

omit [DecidableEq Id] in
/-- The phase of one thread changes, and the places of the others stay. -/
theorem owed_update {phase : Phase} {data : Data} {other : Thread} (differ : other ≠ thread)
    (place : after.place other = client.kernel.place other) :
    Client.owed ⟨after, data, Function.update client.phase thread phase⟩ semaphore stage other =
      client.owed semaphore stage other := by
  simp only [Client.owed, Function.update_of_ne differ, place]

omit [DecidableEq Id] in
/-- A thread that waits for its completion gets it, or goes on waiting. -/
theorem Serial.p {phase : Thread → Phase} {data : Data} {later : List Id}
    (serial : Serial semaphore client.kernel later (client.owed semaphore stage))
    (owes : client.owed semaphore stage thread = some id)
    (alone : ∀ other, other ≠ thread → client.owed semaphore stage other = none)
    (is : stage (phase thread) = .awaited id)
    (others : ∀ other, other ≠ thread → stage (phase other) = stage (client.phase other)) :
    Serial semaphore (client.kernel.p thread (.named semaphore)) later
      (Client.owed ⟨client.kernel.p thread (.named semaphore), data, phase⟩ semaphore stage) := by
  have quiet (other : Thread) (differ : other ≠ thread) :
      Client.owed ⟨client.kernel.p thread (.named semaphore), data, phase⟩ semaphore stage other =
        client.owed semaphore stage other := by
    -- `P` moves the caller only.
    have place := Kernel.place_of_enters (enters_p client.kernel thread (.named semaphore)) differ
    simp only [Client.owed, others other differ, place]
  rcases serial.owing thread id owes with ⟨flying, zero⟩ | ⟨landed, one⟩
  · -- The value is zero, so the thread sleeps until the interrupt comes.
    have slept : client.kernel.p thread (.named semaphore) =
        client.kernel.block thread (.semaphore (.named semaphore)) (.inP (.named semaphore)) := by
      rw [Kernel.p, if_pos zero]
    refine serial.frame ?_ rfl fun other => ?_
    · rw [slept, Kernel.block_value]
    · by_cases same : other = thread
      · rw [same, owes]
        -- It sleeps at the semaphore, so it still has its completion to take.
        simp [Client.owed, is, slept, Stage.owes]
      · exact quiet other same
  · -- The interrupt came first, and its unit is taken.
    have taken : client.kernel.p thread (.named semaphore) = { client.kernel.leave thread with
        value := Function.update client.kernel.value (.named semaphore) 0 } := by
      rw [Kernel.p, if_neg (by simp [one]), one]
      rfl
    have nothing : ∀ other, Client.owed
        ⟨client.kernel.p thread (.named semaphore), data, phase⟩ semaphore stage other = none := by
      intro other
      -- Nobody has anything to take any more, the thread included.
      by_cases same : other = thread
      · rw [same]
        simp [Client.owed, is, taken, Stage.owes, Kernel.leave]
      · rw [quiet other same]
        exact alone other same
    refine ⟨fun _ => ⟨landed, by simp [taken]⟩, fun other id also => ?_⟩
    rw [nothing other] at also
    cases also

omit [DecidableEq Id] in
/-- A request that is pending is the only one, and somebody waits for it. -/
theorem Serial.flying {requests : List Id} {owed : Thread → Option Id}
    (serial : Serial semaphore kernel requests owed) (member : id ∈ requests) :
    requests = [id] ∧ kernel.value (.named semaphore) = 0 ∧ ∃ owner, owed owner = some id := by
  -- If nobody had anything to take, nothing would be pending.
  obtain ⟨owner, number, owes⟩ : ∃ owner number, owed owner = some number := by
    by_contra! quiet
    have empty := (serial.calm fun thread => Option.eq_none_iff_forall_ne_some.mpr
      (quiet thread)).1
    rw [empty] at member
    cases member
  -- The request of that thread is the only one, so it is the one in question.
  rcases serial.owing owner number owes with ⟨flying, zero⟩ | ⟨landed, -⟩
  · rw [flying, List.mem_singleton] at member
    exact ⟨member ▸ flying, zero, owner, member ▸ owes⟩
  · rw [landed] at member
    cases member

/-- Every step keeps the requests apart. -/
theorem Serial.step (serial : Serial semaphore client.kernel (pending client.data)
      (client.owed semaphore stage))
    (serving : Serving routines rests semaphore inside stage pending)
    (positioned : Positioned routines rests client.kernel client.phase)
    (exclusive : Exclusive lock client.kernel fun thread => inside (client.phase thread) = true)
    (moves : Moves routines rests client act next) :
    Serial semaphore next.kernel (pending next.data) (next.owed semaphore stage) := by
  cases moves with
  -- A statement that calls nothing leaves the kernel alone.
  | @statement _ thread outcome current outside did silent =>
    have others (other : Thread) (differ : other ≠ thread) :
        Client.owed ⟨client.kernel, outcome.data, Function.update client.phase thread outcome.phase⟩
          semaphore stage other = client.owed semaphore stage other :=
      owed_update differ rfl
    cases serving.statements _ _ _ _ _ did with
    -- It has nothing to do with requests.
    | keep same still avoids =>
      refine serial.frame rfl still fun other => ?_
      by_cases mine : other = thread
      · simp [mine, Client.owed, same]
      · exact others other mine
    | issue id within before later silent adds =>
      -- Nobody else has made a request, so this is the only one.
      have none : client.owed semaphore stage thread = none := by
        simp [Client.owed, before, Stage.owes]
      obtain ⟨empty, zero⟩ := serial.quiet serving positioned exclusive within outside none
      have mine : Client.owed ⟨client.kernel, outcome.data,
          Function.update client.phase thread outcome.phase⟩ semaphore stage thread = some id := by
        simp [Client.owed, later, Stage.owes]
      refine ⟨fun quiet => ?_, fun other number owes => .inl ?_⟩
      · rw [quiet thread] at mine
        cases mine
      · by_cases same : other = thread
        · -- The thread that made the request is the one that has to wait for it.
          rw [same, mine, Option.some.injEq] at owes
          exact ⟨by rw [adds, empty, owes, List.nil_append], zero⟩
        · have nothing := serving.alone positioned exclusive within outside same
          rw [others other same, nothing] at owes
          cases owes
    -- Waiting is a call, and this statement calls nothing.
    | await id before later calls still =>
      rw [silent] at calls
      cases calls
    -- The completion has been taken before, so nothing is owed before or after.
    | finish id before later avoids still =>
      refine serial.frame rfl still fun other => ?_
      by_cases mine : other = thread
      · simp [mine, Client.owed, later, before, Stage.owes, outside]
      · exact others other mine
  -- A statement that calls a primitive changes the place of its thread at most.
  | @call _ thread outcome call kernel current outside did calls performed =>
    have others (other : Thread) (differ : other ≠ thread) :
        Client.owed ⟨kernel, outcome.data, Function.update client.phase thread outcome.phase⟩
          semaphore stage other = client.owed semaphore stage other :=
      owed_update differ (Kernel.perform_place_of_ne performed differ)
    cases serving.statements _ _ _ _ _ did with
    | keep same still avoids =>
      obtain ⟨value, away⟩ := perform_avoids outside (avoids call calls) performed
      refine serial.frame value still fun other => ?_
      by_cases mine : other = thread
      · -- The thread does not end up at the semaphore, so it owes what it owed.
        cases is : stage (client.phase thread) <;>
          simp [mine, Client.owed, same, is, Stage.owes, outside, away]
      · exact others other mine
    | issue id within before later silent adds =>
      rw [silent] at calls
      cases calls
    | await id before later waits still =>
      rw [calls, Option.some.injEq] at waits
      -- The call is the `P` for which the other cases have been prepared.
      subst waits
      cases performed
      have owes : client.owed semaphore stage thread = some id := by
        simp [Client.owed, before, Stage.owes]
      have within := serving.within_of_owed owes
      rw [still]
      refine serial.p owes (fun other => serving.alone positioned exclusive within outside) ?_ ?_
      · simp [later]
      · intro other differ
        rw [Function.update_of_ne differ]
    | finish id before later avoids still =>
      obtain ⟨value, away⟩ := perform_avoids outside (avoids call calls) performed
      refine serial.frame value still fun other => ?_
      by_cases mine : other = thread
      · simp [mine, Client.owed, later, before, Stage.owes, outside]
      · exact others other mine
  -- An interrupt without a signal completes nothing.
  | handle settled handled =>
    rcases serving.devices _ _ _ _ handled with ⟨id, -, -, signals⟩ | ⟨still, -⟩
    · cases signals
    · exact serial.frame rfl still fun _ => rfl
  -- An interrupt that signals some semaphore.
  | @raise device data other settled handled =>
    have place := (raises_v client.kernel (.named other)).place
    have same (thread : Thread) : Client.owed ⟨client.kernel.v (.named other), data, client.phase⟩
        semaphore stage thread = client.owed semaphore stage thread := by
      simp only [Client.owed, place]
    rcases serving.devices _ _ _ _ handled with ⟨id, member, erased, signals⟩ | ⟨still, differ⟩
    · -- The one request that is pending is complete.
      obtain rfl : other = semaphore := Option.some.inj signals
      obtain ⟨only, zero, owner, owes⟩ := serial.flying member
      refine ⟨fun quiet => ?_, fun thread number also => .inr ⟨?_, ?_⟩⟩
      · -- The thread that waits for this request is still there, so not everybody is quiet.
        rw [← same, quiet owner] at owes
        cases owes
      · rw [erased, only, List.erase_cons_head]
      · simp [Kernel.v, zero]
    · -- The completion is of another kind, and the semaphore of another name.
      refine serial.frame ?_ still same
      have foreign : SemaphoreName.named semaphore ≠ .named other := by
        rintro ⟨⟩
        exact differ rfl
      simp [Kernel.v, Function.update_of_ne foreign]
  -- A thread that has been woken tries to go on.
  | @resume thread kernel current busy rested resumed =>
    obtain ⟨there, issues⟩ := serving.sleeps _ _ rested
    -- It waits at the semaphore, and calls `P` again.
    by_cases waits : client.kernel.place thread = .inP (.named semaphore)
    · obtain ⟨id, is⟩ := there.mp waits
      have owes : client.owed semaphore stage thread = some id := by
        simp [Client.owed, is, Stage.owes, waits]
      rw [waits, Kernel.resume, Except.ok.injEq] at resumed
      subst resumed
      refine serial.p owes (fun other differ => ?_) is fun _ _ => rfl
      rw [Option.eq_none_iff_forall_ne_some]
      intro number also
      -- Two threads inside with completions to take would both be away from the lock.
      exact differ (exclusive.unique (serving.within_of_owed owes)
        (serving.away_of_owed positioned owes) (serving.within_of_owed also)
        (serving.away_of_owed positioned also))
    · -- A thread that sleeps elsewhere has made no request.
      have is : stage (client.phase thread) = .none := by
        cases is : stage (client.phase thread) with
        | none => rfl
        | issued id => exact (issues id is).elim
        | awaited id => exact (waits (there.mpr ⟨id, is⟩)).elim
      refine serial.frame (resume_avoids waits resumed) rfl ?_
      intro other
      by_cases mine : other = thread
      · simp [mine, Client.owed, is, Stage.owes]
      · simp only [Client.owed, Kernel.resume_place_of_ne resumed mine]
  -- The steps of other code touch none of the objects of this module.
  | @other action kernel stepped untouched still =>
    refine serial.frame (Kernel.value_eq_of_units (untouched.units _ serving.owned)) rfl
      fun thread => ?_
    cases within : inside (client.phase thread) with
    | false => simp [Client.owed, serving.within _ within, Stage.owes]
    | true => simp only [Client.owed, still thread (serving.busy _ within)]

/-- Threads are where they should be, one is inside at most, and so is its request. -/
structure Served (routines : Routines Data Phase Entry Choice Device) (rests : Phase → Place → Prop)
    (lock semaphore : Nat) (inside : Phase → Bool) (stage : Phase → Stage Id)
    (pending : Data → List Id) (client : Client Data Phase) : Prop where
  positioned : Positioned routines rests client.kernel client.phase
  exclusive : Exclusive lock client.kernel fun thread => inside (client.phase thread) = true
  serial : Serial semaphore client.kernel (pending client.data) (client.owed semaphore stage)

/-- It is so while nobody is in the routines yet. -/
theorem Served.start (locking : Locking routines lock inside)
    (serving : Serving routines rests semaphore inside stage pending)
    (away : ∀ thread, (client.kernel.place thread).touches routines.owns = false)
    (idle : ∀ thread, routines.idle (client.phase thread) = true)
    (value : client.kernel.value (.named semaphore) = 0) (empty : pending client.data = []) :
    Served routines rests lock semaphore inside stage pending client := by
  -- A thread that is inside is not idle, but all of them are.
  have out (thread : Thread) : inside (client.phase thread) = false := by
    rw [← Bool.not_eq_true]
    intro within
    have busy := serving.busy _ within
    rw [idle thread] at busy
    cases busy
  have nothing (thread : Thread) : client.owed semaphore stage thread = none := by
    simp [Client.owed, serving.within _ (out thread), Stage.owes]
  refine ⟨⟨fun thread _ => away thread, fun thread busy => ?_⟩, locking.start away out,
    ⟨fun _ => ⟨empty, value⟩, fun thread id owes => ?_⟩⟩
  · rw [idle thread] at busy
    cases busy
  · rw [nothing thread] at owes
    cases owes

/-- Every step of the module keeps it so. -/
theorem Served.step (served : Served routines rests lock semaphore inside stage pending client)
    (disciplined : Disciplined routines rests) (locking : Locking routines lock inside)
    (serving : Serving routines rests semaphore inside stage pending)
    (moves : Moves routines rests client act next) :
    Served routines rests lock semaphore inside stage pending next where
  positioned := served.positioned.step disciplined moves
  exclusive := served.exclusive.step locking moves
  serial := served.serial.step serving served.positioned served.exclusive moves

/-- A thread that goes on inside and has nothing to take finds nothing pending. -/
theorem Served.quiet (served : Served routines rests lock semaphore inside stage pending client)
    (serving : Serving routines rests semaphore inside stage pending)
    (within : inside (client.phase thread) = true)
    (outside : client.kernel.place thread = .outside)
    (nothing : client.owed semaphore stage thread = none) :
    pending client.data = [] ∧ client.kernel.value (.named semaphore) = 0 :=
  served.serial.quiet serving served.positioned served.exclusive within outside nothing

omit [DecidableEq Id] in
/-- The semaphore is never above one. -/
theorem Served.value (served : Served routines rests lock semaphore inside stage pending client) :
    client.kernel.value (.named semaphore) = 0 ∨ client.kernel.value (.named semaphore) = 1 := by
  -- Either nobody has a completion to take and the value is zero, or somebody has.
  by_cases quiet : ∀ thread, client.owed semaphore stage thread = none
  · exact .inl (served.serial.calm quiet).2
  · rw [not_forall] at quiet
    obtain ⟨thread, owes⟩ := quiet
    obtain ⟨id, owes⟩ := Option.ne_none_iff_exists'.mp owes
    exact (served.serial.owing thread id owes).imp And.right And.right

omit [DecidableEq Id] in
/-- There is never more than one request. -/
theorem Served.length_pending
    (served : Served routines rests lock semaphore inside stage pending client) :
    (pending client.data).length ≤ 1 := by
  by_cases quiet : ∀ thread, client.owed semaphore stage thread = none
  · simp [(served.serial.calm quiet).1]
  · rw [not_forall] at quiet
    obtain ⟨thread, owes⟩ := quiet
    obtain ⟨id, owes⟩ := Option.ne_none_iff_exists'.mp owes
    -- The request is that of the thread, unless it is complete.
    rcases served.serial.owing thread id owes with ⟨flying, -⟩ | ⟨landed, -⟩
    · simp [flying]
    · simp [landed]

end Nachos.Threads
