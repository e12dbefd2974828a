import Nachos.Threads.Monitor

/-! `SynchList`, a list from which threads take items, and at which they wait for some. -/

namespace Nachos.Threads

/-- Where a thread goes on in `SynchList::Append` or `Remove`, once it is outside the primitives. -/
inductive Phase (Item : Type) where
  /-- In neither of them. -/
  | idle
  /-- `Append` has acquired the lock, and puts the item on the list. -/
  | append (item : Item)
  /-- `Append` signals the condition. -/
  | signal
  /-- `Append` releases the lock. -/
  | release
  /-- `Remove` has acquired the lock, or returned from `Wait`, and looks at the list. -/
  | check
  /-- `Remove` has seen that the list is not empty. -/
  | take
  /-- `Remove` has taken the item, and releases the lock to return it. -/
  | give (item : Item)
  deriving DecidableEq, Repr

/-- Is the thread outside of the routines? -/
def Phase.isIdle {Item : Type} : Phase Item → Bool
  | .idle => true
  | _ => false

/-- Where a thread can be in each phase. -/
def Phase.fits {Item : Type} (lock listEmpty : Nat) (phase : Phase Item) (place : Place) : Prop :=
  match phase with
  | .idle => place.uses lock listEmpty = false
  | .append _ => place = .outside ∨ place = .inAcquire lock
  | .check => place = .outside ∨ place = .inAcquire lock ∨ place = .inWait listEmpty lock
  | .signal | .release | .take | .give _ => place = .outside

/-- A synchronised list, the kernel below it, and the threads that use it. -/
structure SynchList (Item : Type) where
  kernel : Kernel
  list : List Item
  phase : Thread → Phase Item

namespace SynchList

variable {Item : Type}

/-- What can happen next. -/
inductive Action (Item : Type) where
  /-- The running thread calls `Append`. -/
  | append (item : Item)
  /-- The running thread calls `Remove`. -/
  | remove
  /-- The running thread goes on to the next statement of the routine it is in. -/
  | go
  /-- Anything else that happens in the kernel. -/
  | other (action : Threads.Action)
  deriving DecidableEq, Repr

/-- What users of the list see. -/
inductive Event (Item : Type) where
  | appended (item : Item)
  | returned (item : Item)
  deriving DecidableEq, Repr

/-- The thread calls a primitive, and goes on in a phase afterwards. -/
def callThen (state : SynchList Item) (thread : Thread) (call : Call) (phase : Phase Item) :
    Except Fault (SynchList Item) :=
  match Threads.step state.kernel (.call call) with
  | .ok kernel =>
    .ok { state with kernel := kernel, phase := Function.update state.phase thread phase }
  | .error fault => .error fault

variable (lock listEmpty : Nat)

/-- The next statement of the routine that a thread is in. -/
def proceed [Inhabited Item] (state : SynchList Item) (thread : Thread) :
    Except Fault (SynchList Item) :=
  match state.phase thread with
  | .idle => .error .disabled
  | .append item => .ok { state with
      list := state.list ++ [item]
      phase := Function.update state.phase thread .signal }
  | .signal => state.callThen thread (.signal listEmpty lock) .release
  | .release | .give _ => state.callThen thread (.release lock) .idle
  | .check =>
    if state.list.isEmpty then state.callThen thread (.wait listEmpty lock) .check
    else .ok { state with phase := Function.update state.phase thread .take }
  | .take => .ok { state with
      list := state.list.tail
      -- An empty list has a default item to give.
      phase := Function.update state.phase thread (.give (state.list.headD default)) }

/-- The actions that are taken by the running thread, for which it is outside of the routines. -/
def byCaller : Threads.Action → Bool
  | .call _ | .fork _ | .join _ | .finish | .create _ _ | .delete _ => true
  | .resume | .yield | .interrupt _ | .dispatch => false

/-- One step of the system; the lock and the condition are private to the list. -/
def step [Inhabited Item] (state : SynchList Item) :
    Action Item → Except Fault (SynchList Item)
  | .append item =>
    match state.kernel.caller with
    | none => .error .disabled
    | some thread =>
      if (state.phase thread).isIdle then
        state.callThen thread (.acquire lock) (.append item)
      else .error .disabled
  | .remove =>
    match state.kernel.caller with
    | none => .error .disabled
    | some thread =>
      if (state.phase thread).isIdle then state.callThen thread (.acquire lock) .check
      else .error .disabled
  | .go =>
    match state.kernel.caller with
    | none => .error .disabled
    | some thread => state.proceed lock listEmpty thread
  | .other action =>
    if action.spares lock listEmpty ∧ (byCaller action → state.kernel.caller.all fun thread =>
        (state.phase thread).isIdle) then
      match Threads.step state.kernel action with
      | .ok kernel => .ok { state with kernel := kernel }
      | .error fault => .error fault
    else .error .disabled

/-- An item is appended when it is put on the list, and returned when the lock is released. -/
def observe (before : SynchList Item) (action : Action Item) (_after : SynchList Item) :
    List (Event Item) :=
  match action, before.kernel.caller with
  | .go, some thread =>
    match before.phase thread with
    | .append item => [.appended item]
    | .give item => [.returned item]
    | _ => []
  | _, _ => []

/-- The constructor of a list, in any run of the kernel that has not used these objects yet. -/
structure Init (main : Thread) (state : SynchList Item) : Prop where
  constructed : ∃ kernel history,
    Runs.Traced Threads.step (Boot · main) (fun _ _ => True) Threads.observe kernel history ∧
    kernel.life (.lock lock) = .unborn ∧ kernel.life (.condition listEmpty) = .unborn ∧
    Runs.run Threads.step kernel [.create (.lock lock) 0, .create (.condition listEmpty) 0] =
      .ok state.kernel
  empty : state.list = []
  idle : ∀ thread, state.phase thread = .idle

/-- The items that were appended, oldest first. -/
def appended (history : List (Event Item)) : List Item :=
  history.filterMap fun
    | .appended item => some item
    | .returned _ => none

/-- The items that were returned, oldest first. -/
def returned (history : List (Event Item)) : List Item :=
  history.filterMap fun
    | .returned item => some item
    | .appended _ => none

/-- `Wait` begins, and `Signal` dequeues a thread, while no permission is left over. -/
def permits (state : SynchList Item) : Action Item → Prop
  | .go => ∀ thread ∈ state.kernel.caller,
    (state.phase thread = .signal → state.kernel.queue (.condition listEmpty) ≠ [] →
      state.kernel.isBusy listEmpty = true) ∧
    (state.phase thread = .check → state.list = [] → state.kernel.isBusy listEmpty = true)
  | .append _ | .remove | .other _ => True

instance [DecidableEq Item] (state : SynchList Item) (action : Action Item) :
    Decidable (state.permits listEmpty action) :=
  match action with
  | .go => inferInstanceAs (Decidable (∀ thread ∈ state.kernel.caller, _ ∧ _))
  | .append _ | .remove | .other _ => .isTrue trivial

/-- The lock is available, and nobody who was dequeued at the lock or the condition has to go on. -/
def Quiet (state : SynchList Item) : Prop :=
  state.kernel.available lock = true ∧ ∀ thread,
    (state.kernel.place thread).object = some (.lock lock) ∨
      (state.kernel.place thread).object = some (.condition listEmpty) →
    state.kernel.status thread = .blocked

/-- No thread is asleep in the `Wait` of `Remove` beside items. -/
def Unstranded (state : SynchList Item) : Prop :=
  ∀ thread, state.kernel.place thread = .inWait listEmpty lock →
    state.kernel.status thread = .blocked → state.list = []

variable {lock listEmpty : Nat} {kernel after : Kernel} {phase : Thread → Phase Item}
  {thread : Thread} {exempt : Thread → Prop}

/-- Threads are where their phases say, and hold the lock when they go on in a routine. -/
structure Excluded (lock listEmpty : Nat) (exempt : Thread → Prop) (kernel : Kernel)
    (phase : Thread → Phase Item) : Prop where
  fits : ∀ thread, ¬ exempt thread → (phase thread).fits lock listEmpty (kernel.place thread)
  holds : ∀ thread, ¬ exempt thread → phase thread ≠ .idle → kernel.place thread = .outside →
    kernel.lockState lock = (false, some thread)

/-- What holds without exception holds with one. -/
theorem Excluded.but (excluded : Excluded lock listEmpty (fun _ => False) kernel phase)
    (thread : Thread) : Excluded lock listEmpty (· = thread) kernel phase :=
  ⟨fun other _ => excluded.fits other not_false, fun other _ => excluded.holds other not_false⟩

/-- The exception does not count if it is in order. -/
theorem Excluded.settle (excluded : Excluded lock listEmpty (· = thread) kernel phase)
    (fits : (phase thread).fits lock listEmpty (kernel.place thread))
    (holds : phase thread ≠ .idle → kernel.place thread = .outside →
      kernel.lockState lock = (false, some thread)) :
    Excluded lock listEmpty (fun _ => False) kernel phase := by
  refine ⟨fun other _ => ?_, fun other _ => ?_⟩
  · by_cases same : other = thread
    · exact same ▸ fits
    · exact excluded.fits other same
  · by_cases same : other = thread
    · exact same ▸ holds
    · exact excluded.holds other same

/-- The phase of the exception does not matter. -/
theorem Excluded.update (excluded : Excluded lock listEmpty (· = thread) kernel phase)
    (next : Phase Item) :
    Excluded lock listEmpty (· = thread) kernel (Function.update phase thread next) := by
  refine ⟨fun other differ => ?_, fun other differ => ?_⟩
  · rw [Function.update_of_ne differ]
    exact excluded.fits other differ
  · rw [Function.update_of_ne differ]
    exact excluded.holds other differ

/-- What moves nobody else and leaves the lock alone keeps all others in order. -/
theorem Excluded.frame (excluded : Excluded lock listEmpty exempt kernel phase)
    (members : after.lockState lock = kernel.lockState lock)
    (places : ∀ other, ¬ exempt other → after.place other = kernel.place other) :
    Excluded lock listEmpty exempt after phase := by
  refine ⟨fun other spared => ?_, fun other spared => ?_⟩
  · rw [places other spared]
    exact excluded.fits other spared
  · rw [places other spared, members]
    exact excluded.holds other spared

/-- A thread that goes for the lock takes it, or sleeps. -/
theorem Excluded.acquire (excluded : Excluded lock listEmpty (· = thread) kernel phase)
    (asleep : (phase thread).fits lock listEmpty (.inAcquire lock))
    (awake : (phase thread).fits lock listEmpty .outside) :
    Excluded lock listEmpty (fun _ => False) (kernel.acquire thread lock) phase := by
  unfold Kernel.acquire
  split
  · rename_i free
    -- Nobody else can be inside, for the lock was available.
    have nobody : ∀ other, other ≠ thread → phase other ≠ .idle →
        kernel.place other ≠ .outside := by
      intro other differ busy outside
      have taken := excluded.holds other differ busy outside
      simp [Kernel.lockState, free] at taken
    refine ⟨fun other _ => ?_, fun other _ busy outside => ?_⟩
    · by_cases same : other = thread
      · simpa [same, Kernel.leave] using awake
      · simpa [Kernel.leave, Function.update_of_ne same] using excluded.fits other same
    · by_cases same : other = thread
      · simp [same, Kernel.lockState]
      · simp only [Kernel.leave, Function.update_of_ne same] at outside
        exact (nobody other same busy outside).elim
  · refine Excluded.settle (excluded.frame (by simp) fun other differ => ?_) ?_ ?_
    · simp [Function.update_of_ne differ]
    · simpa using asleep
    · intro _ outside
      simp at outside

/-- Only one thread goes on in a routine. -/
theorem Excluded.unique (excluded : Excluded lock listEmpty (fun _ => False) kernel phase)
    (busy : phase thread ≠ .idle) (outside : kernel.place thread = .outside) {other : Thread}
    (also : phase other ≠ .idle) (too : kernel.place other = .outside) : other = thread := by
  have mine := excluded.holds thread not_false busy outside
  rw [excluded.holds other not_false also too, Prod.mk.injEq, Option.some.injEq] at mine
  exact mine.2

/-- A thread that gives the lock back was the only one inside. -/
theorem Excluded.release (excluded : Excluded lock listEmpty (fun _ => False) kernel phase)
    (busy : phase thread ≠ .idle) (outside : kernel.place thread = .outside) :
    Excluded lock listEmpty (· = thread) (kernel.release lock) phase := by
  have place := (release_members kernel lock).2.2
  refine ⟨fun other _ => ?_, fun other differ also too => ?_⟩
  · rw [place]
    exact excluded.fits other not_false
  · rw [place] at too
    exact (differ (excluded.unique busy outside also too)).elim

/-- A thread in the loop of `Wait` sleeps, or goes for the lock. -/
theorem Excluded.waitLoop (excluded : Excluded lock listEmpty (· = thread) kernel phase)
    (checks : phase thread = .check) :
    Excluded lock listEmpty (fun _ => False) (kernel.waitLoop thread listEmpty lock) phase := by
  unfold Kernel.waitLoop
  split
  · refine Excluded.settle (excluded.frame (by simp) fun other differ => ?_) ?_ ?_
    · simp [Function.update_of_ne differ]
    · simp [checks, Phase.fits]
    · intro _ outside
      simp at outside
  · refine Excluded.acquire ?_ (by simp [checks, Phase.fits]) (by simp [checks, Phase.fits])
    exact excluded.frame rfl fun _ _ => rfl

/-- `Wait` gives the lock up, for its caller holds it. -/
theorem Excluded.wait (excluded : Excluded lock listEmpty (fun _ => False) kernel phase)
    (checks : phase thread = .check) (outside : kernel.place thread = .outside) :
    Excluded lock listEmpty (fun _ => False) (kernel.wait thread listEmpty lock) phase := by
  have busy : phase thread ≠ .idle := by simp [checks]
  have mine := excluded.holds thread not_false busy outside
  have held : kernel.isHeldBy lock thread = true := isHeldBy_of_owner (congrArg Prod.snd mine)
  rw [Kernel.wait, Kernel.releaseHeld, if_pos held]
  exact (excluded.release busy outside).waitLoop checks

/-- `Signal` moves nobody. -/
@[simp] theorem signal_place (kernel : Kernel) (thread : Thread) (condition lock : Nat) :
    (kernel.signal thread condition lock).place = kernel.place := by
  unfold Kernel.signal
  split
  · split
    · rfl
    · exact (kernel.wake_frame _).2.1
  · rfl

/-- `Signal` does not use the lock. -/
@[simp] theorem signal_lockState (kernel : Kernel) (thread : Thread) (condition lock : Nat) :
    (kernel.signal thread condition lock).lockState = kernel.lockState := by
  unfold Kernel.signal
  split
  · split
    · rfl
    · exact kernel.wake_lockState _
  · rfl

/-- A thread in one of the routines that is not at the lock or the condition goes on in it. -/
theorem Excluded.outside (excluded : Excluded lock listEmpty (fun _ => False) kernel phase)
    (busy : phase thread ≠ .idle) (away : (kernel.place thread).uses lock listEmpty = false) :
    kernel.place thread = .outside := by
  have fits := excluded.fits thread not_false
  cases shape : phase thread with
  | idle => exact (busy shape).elim
  | signal | release | take | give => simpa [shape, Phase.fits] using fits
  | append item =>
    rw [shape] at fits
    exact fits.resolve_right fun inside => by simp [inside, Place.uses] at away
  | check =>
    rw [shape] at fits
    rcases fits with outside | inside | waits
    · exact outside
    · simp [inside, Place.uses] at away
    · simp [waits, Place.uses] at away

/-- A thread that is at the condition came from `Remove`. -/
theorem Excluded.checks (excluded : Excluded lock listEmpty (fun _ => False) kernel phase)
    (here : (kernel.place thread).object = some (.condition listEmpty)) :
    phase thread = .check := by
  have fits := excluded.fits thread not_false
  have uses : (kernel.place thread).uses lock listEmpty = true := by
    cases placed : kernel.place thread <;> simp_all [Place.uses, Place.object]
  cases shape : phase thread with
  | check => rfl
  | idle => simp [shape, Phase.fits, uses] at fits
  | signal | release | take | give =>
    simp only [shape, Phase.fits] at fits
    simp [fits] at here
  | append item =>
    rw [shape] at fits
    rcases fits with outside | inside
    · simp [outside] at here
    · simp [inside, Place.object] at here

/-- The running thread is the one that calls a primitive. -/
theorem performed_of_call {call : Call} (current : kernel.currentThread = some thread)
    (stepped : Threads.step kernel (.call call) = .ok after) :
    kernel.perform thread call = .ok after := by
  cases step_stepped stepped with
  | @call running _ _ runs outside live performed =>
    rw [current, Option.some.injEq] at runs
    exact runs ▸ performed

/-- What the running thread does itself it does from outside of the primitives. -/
theorem outside_of_byCaller {action : Threads.Action} (asked : byCaller action = true)
    (current : kernel.currentThread = some thread)
    (stepped : Threads.step kernel action = .ok after) : kernel.place thread = .outside := by
  cases step_stepped stepped with
  | call runs outside | fork runs outside | join runs outside | finish runs outside
  | create runs outside | delete runs outside =>
    rw [current, Option.some.injEq] at runs
    exact runs ▸ outside
  | resume | yield | interrupt | dispatch => cases asked

/-- The other actions move nobody, unless a thread goes on in a primitive. -/
theorem place_of_unasked {action : Threads.Action} (unasked : byCaller action = false)
    (stays : action ≠ .resume) (stepped : Threads.step kernel action = .ok after) :
    after.place = kernel.place := by
  cases step_stepped stepped with
  | call | fork | join | finish | create | delete => cases unasked
  | resume => exact (stays rfl).elim
  | yield current outside =>
    unfold Kernel.yield
    split <;> rfl
  | interrupt settled live => exact (raises_v kernel _).place
  | dispatch idle ready => simp

/-- Steps of others keep the threads in order. -/
theorem Excluded.other {action : Threads.Action}
    (excluded : Excluded lock listEmpty (fun _ => False) kernel phase)
    (spares : action.spares lock listEmpty = true)
    (idle : byCaller action = true → ∀ thread, kernel.caller = some thread →
      phase thread = .idle)
    (stepped : Threads.step kernel action = .ok after) :
    Excluded lock listEmpty (fun _ => False) after phase := by
  -- A thread that goes on at the lock or at the condition is in one of the routines.
  by_cases own : action = .resume ∧ ∃ thread, kernel.currentThread = some thread ∧
      (kernel.place thread).uses lock listEmpty = true
  · obtain ⟨rfl, thread, current, uses⟩ := own
    cases step_stepped stepped with
    | @resume running _ runs live resumed =>
      rw [current, Option.some.injEq] at runs
      subst runs
      have fits := excluded.fits thread not_false
      cases shape : phase thread with
      | idle => simp [shape, Phase.fits, uses] at fits
      | signal | release | take | give =>
        simp only [shape, Phase.fits] at fits
        simp [fits, Place.uses] at uses
      | append item =>
        rw [shape] at fits
        rcases fits with outside | inside
        · simp [outside, Place.uses] at uses
        · simp only [inside, Kernel.resume, Except.ok.injEq] at resumed
          exact resumed ▸ (excluded.but thread).acquire (by simp [shape, Phase.fits])
            (by simp [shape, Phase.fits])
      | check =>
        rw [shape] at fits
        rcases fits with outside | inside | waits
        · simp [outside, Place.uses] at uses
        · simp only [inside, Kernel.resume, Except.ok.injEq] at resumed
          exact resumed ▸ (excluded.but thread).acquire (by simp [shape, Phase.fits])
            (by simp [shape, Phase.fits])
        · simp only [waits, Kernel.resume, Except.ok.injEq] at resumed
          exact resumed ▸ (excluded.but thread).waitLoop shape
  · have spared : Spared lock listEmpty kernel after := by
      refine spared_step stepped spares fun resumes thread current => ?_
      by_contra uses
      exact own ⟨resumes, thread, current, by simpa using uses⟩
    -- A thread in one of the routines does not move in any other step.
    have still : ∀ thread, phase thread ≠ .idle → after.place thread = kernel.place thread := by
      intro thread busy
      by_cases current : kernel.currentThread = some thread
      · cases asked : byCaller action with
        | true =>
          have caller := Kernel.caller_eq_some.mpr ⟨current, outside_of_byCaller asked current stepped⟩
          exact (busy (idle asked thread caller)).elim
        | false =>
          by_cases resumes : action = .resume
          · -- Outside of the primitives there is nothing to go on with.
            subst resumes
            cases step_stepped stepped with
            | @resume running _ runs live resumed =>
              rw [current, Option.some.injEq] at runs
              subst runs
              have outside := excluded.outside busy (by
                by_contra uses
                exact own ⟨rfl, thread, current, by simpa using uses⟩)
              simp [outside, Kernel.resume] at resumed
          · rw [place_of_unasked asked resumes stepped]
      · exact Kernel.place_of_step stepped current
    refine ⟨fun thread _ => ?_, fun thread _ busy outside => ?_⟩
    · have fits := excluded.fits thread not_false
      by_cases busy : phase thread = .idle
      · rw [busy] at fits ⊢
        exact spared.strangers thread fits
      · rwa [still thread busy]
    · rw [still thread busy] at outside
      rw [spared.members]
      exact excluded.holds thread not_false busy outside

variable {state next : SynchList Item} {action : Action Item}

/-- A thread that is outside of the routines is idle. -/
theorem eq_idle {phase : Phase Item} (idle : phase.isIdle = true) : phase = .idle := by
  cases phase <;> first | rfl | cases idle

/-- A call that succeeds is a step of the kernel. -/
theorem callThen_eq_ok {call : Call} {phase : Phase Item}
    (called : state.callThen thread call phase = .ok next) :
    ∃ kernel, Threads.step state.kernel (.call call) = .ok kernel ∧
      next = { state with
        kernel := kernel, phase := Function.update state.phase thread phase } := by
  unfold callThen at called
  split at called
  · rename_i kernel stepped
    cases called
    exact ⟨kernel, stepped, rfl⟩
  · cases called

variable [Inhabited Item]

/-- What a step of the system does to the kernel, the list and the phases. -/
inductive Moves (lock listEmpty : Nat) (state : SynchList Item) :
    Action Item → SynchList Item → Prop
  | append {thread : Thread} {item : Item} {kernel : Kernel}
      (current : state.kernel.currentThread = some thread)
      (outside : state.kernel.place thread = .outside) (idle : state.phase thread = .idle)
      (stepped : Threads.step state.kernel (.call (.acquire lock)) = .ok kernel) :
      Moves lock listEmpty state (.append item) { state with
        kernel := kernel
        phase := Function.update state.phase thread (.append item) }
  | remove {thread : Thread} {kernel : Kernel}
      (current : state.kernel.currentThread = some thread)
      (outside : state.kernel.place thread = .outside) (idle : state.phase thread = .idle)
      (stepped : Threads.step state.kernel (.call (.acquire lock)) = .ok kernel) :
      Moves lock listEmpty state .remove { state with
        kernel := kernel
        phase := Function.update state.phase thread .check }
  | put {thread : Thread} {item : Item} (current : state.kernel.currentThread = some thread)
      (outside : state.kernel.place thread = .outside) (appends : state.phase thread = .append item) :
      Moves lock listEmpty state .go { state with
        list := state.list ++ [item]
        phase := Function.update state.phase thread .signal }
  | signal {thread : Thread} {kernel : Kernel}
      (current : state.kernel.currentThread = some thread)
      (outside : state.kernel.place thread = .outside) (signals : state.phase thread = .signal)
      (stepped : Threads.step state.kernel (.call (.signal listEmpty lock)) = .ok kernel) :
      Moves lock listEmpty state .go { state with
        kernel := kernel
        phase := Function.update state.phase thread .release }
  | release {thread : Thread} {kernel : Kernel}
      (current : state.kernel.currentThread = some thread)
      (outside : state.kernel.place thread = .outside)
      (releases : state.phase thread = .release ∨ ∃ item, state.phase thread = .give item)
      (stepped : Threads.step state.kernel (.call (.release lock)) = .ok kernel) :
      Moves lock listEmpty state .go { state with
        kernel := kernel
        phase := Function.update state.phase thread .idle }
  | wait {thread : Thread} {kernel : Kernel}
      (current : state.kernel.currentThread = some thread)
      (outside : state.kernel.place thread = .outside) (checks : state.phase thread = .check)
      (empty : state.list = [])
      (stepped : Threads.step state.kernel (.call (.wait listEmpty lock)) = .ok kernel) :
      Moves lock listEmpty state .go { state with kernel := kernel }
  | look {thread : Thread} (current : state.kernel.currentThread = some thread)
      (outside : state.kernel.place thread = .outside) (checks : state.phase thread = .check)
      (nonempty : state.list ≠ []) :
      Moves lock listEmpty state .go { state with
        phase := Function.update state.phase thread .take }
  | take {thread : Thread} (current : state.kernel.currentThread = some thread)
      (outside : state.kernel.place thread = .outside) (takes : state.phase thread = .take) :
      Moves lock listEmpty state .go { state with
        list := state.list.tail
        phase := Function.update state.phase thread (.give (state.list.headD default)) }
  | other {action : Threads.Action} {kernel : Kernel}
      (spares : action.spares lock listEmpty = true)
      (idle : byCaller action = true → ∀ thread, state.kernel.caller = some thread →
        state.phase thread = .idle)
      (stepped : Threads.step state.kernel action = .ok kernel) :
      Moves lock listEmpty state (.other action) { state with kernel := kernel }

/-- A statement of a routine that succeeds is one of these. -/
theorem moves_of_proceed (current : state.kernel.currentThread = some thread)
    (outside : state.kernel.place thread = .outside)
    (proceeded : state.proceed lock listEmpty thread = .ok next) :
    Moves lock listEmpty state .go next := by
  unfold proceed at proceeded
  split at proceeded
  · cases proceeded
  · cases proceeded
    exact .put current outside ‹_›
  · obtain ⟨kernel, stepped, rfl⟩ := callThen_eq_ok proceeded
    exact .signal current outside ‹_› stepped
  · obtain ⟨kernel, stepped, rfl⟩ := callThen_eq_ok proceeded
    exact .release current outside (.inl ‹_›) stepped
  · obtain ⟨kernel, stepped, rfl⟩ := callThen_eq_ok proceeded
    exact .release current outside (.inr ⟨_, ‹_›⟩) stepped
  · rename_i checks
    split at proceeded
    · rename_i empty
      obtain ⟨kernel, stepped, rfl⟩ := callThen_eq_ok proceeded
      -- The thread is still to check when it returns from `Wait`.
      rw [← checks, Function.update_eq_self]
      exact .wait current outside checks (List.isEmpty_iff.mp empty) stepped
    · rename_i nonempty
      cases proceeded
      exact .look current outside checks (by simpa using nonempty)
  · cases proceeded
    exact .take current outside ‹_›

/-- A step that succeeds is one of these. -/
theorem moves_of_step (stepped : step lock listEmpty state action = .ok next) :
    Moves lock listEmpty state action next := by
  cases action with
  | append item =>
    simp only [step] at stepped
    split at stepped
    · cases stepped
    · rename_i thread caller
      obtain ⟨current, outside⟩ := Kernel.caller_eq_some.mp caller
      split at stepped
      · obtain ⟨kernel, acquired, rfl⟩ := callThen_eq_ok stepped
        exact .append current outside (eq_idle ‹_›) acquired
      · cases stepped
  | remove =>
    simp only [step] at stepped
    split at stepped
    · cases stepped
    · rename_i thread caller
      obtain ⟨current, outside⟩ := Kernel.caller_eq_some.mp caller
      split at stepped
      · obtain ⟨kernel, acquired, rfl⟩ := callThen_eq_ok stepped
        exact .remove current outside (eq_idle ‹_›) acquired
      · cases stepped
  | go =>
    simp only [step] at stepped
    split at stepped
    · cases stepped
    · rename_i thread caller
      obtain ⟨current, outside⟩ := Kernel.caller_eq_some.mp caller
      exact moves_of_proceed current outside stepped
  | other action =>
    simp only [step] at stepped
    split at stepped
    · rename_i allowed
      split at stepped
      · rename_i kernel moved
        cases stepped
        refine .other allowed.1 (fun by_ thread caller => ?_) moved
        have idle := allowed.2 by_
        rw [caller] at idle
        exact eq_idle idle
      · cases stepped
    · cases stepped

/-- Every step keeps the threads in order. -/
theorem Excluded.step (excluded : Excluded lock listEmpty (fun _ => False) state.kernel state.phase)
    (moves : Moves lock listEmpty state action next) :
    Excluded lock listEmpty (fun _ => False) next.kernel next.phase := by
  cases moves with
  | append current outside idle stepped =>
    cases performed_of_call current stepped
    exact ((excluded.but _).update _).acquire (by simp [Phase.fits]) (by simp [Phase.fits])
  | remove current outside idle stepped =>
    cases performed_of_call current stepped
    exact ((excluded.but _).update _).acquire (by simp [Phase.fits]) (by simp [Phase.fits])
  | put current outside appends =>
    refine ((excluded.but _).update _).settle (by simpa [Phase.fits] using outside) fun _ _ => ?_
    exact excluded.holds _ not_false (by simp [appends]) outside
  | signal current outside signals stepped =>
    cases performed_of_call current stepped
    refine Excluded.settle (((excluded.but _).update _).frame (by simp) (by simp)) ?_ fun _ _ => ?_
    · simpa [Phase.fits] using outside
    · rw [signal_lockState]
      exact excluded.holds _ not_false (by simp [signals]) outside
  | @release thread _ current outside releases stepped =>
    cases performed_of_call current stepped
    have busy : state.phase thread ≠ .idle := by
      rcases releases with releases | ⟨item, gives⟩
      · simp [releases]
      · simp [gives]
    refine ((excluded.release busy outside).update _).settle ?_ (by simp)
    simp [Phase.fits, (release_members state.kernel lock).2.2, outside, Place.uses]
  | wait current outside checks empty stepped =>
    cases performed_of_call current stepped
    exact excluded.wait checks outside
  | look current outside checks nonempty =>
    refine ((excluded.but _).update _).settle (by simpa [Phase.fits] using outside) fun _ _ => ?_
    exact excluded.holds _ not_false (by simp [checks]) outside
  | take current outside takes =>
    refine ((excluded.but _).update _).settle (by simpa [Phase.fits] using outside) fun _ _ => ?_
    exact excluded.holds _ not_false (by simp [takes]) outside
  | other spares idle stepped => exact excluded.other spares idle stepped

end SynchList

end Nachos.Threads
