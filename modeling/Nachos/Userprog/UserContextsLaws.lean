import Nachos.Userprog.UserContexts

/-! No user program sees the registers or the page table of another one. -/

namespace Nachos.UserContexts

variable {threads : Nat → Option UserThread} {thread : Nat} {known : UserThread}
  {entry : Option UserThread} {finished : Option Nat}

/-- A thread that does not run a program has nothing to keep. -/
theorem context_kernel (kernel : known.running = false) : known.context = none := by
  rw [UserThread.context, kernel, if_neg Bool.false_ne_true]

/-- What is kept of a program. -/
theorem context_user {space : Space} (running : known.running = true)
    (loaded : known.space = some space) :
    known.context = some ⟨known.userRegisters, space.pageTable, space.numPages⟩ := by
  rw [UserThread.context, running, if_pos rfl, loaded, Option.map_some]

/-- What is kept of a thread that is there. -/
theorem saved_known (found : threads thread = some known) :
    saved threads thread = known.context := by
  rw [saved, found, Option.bind_some]

/-- A thread that changes takes nothing from the others. -/
theorem saved_update : saved (Function.update threads thread entry) =
    Function.update (saved threads) thread (entry.bind UserThread.context) := by
  funext other
  by_cases same : other = thread
  · rw [same, saved, Function.update_self, Function.update_self]
  · rw [saved, Function.update_of_ne same, Function.update_of_ne same, saved]

/-- A thread that changes may leave its own context alone as well. -/
theorem saved_update_same (same : entry.bind UserThread.context = saved threads thread) :
    saved (Function.update threads thread entry) = saved threads := by
  rw [saved_update, same, Function.update_eq_self]

/-- Who has called `machine->Run` has been there before, has an address space, and goes on. -/
def Settled (threads : Nat → Option UserThread) (finished : Option Nat) : Prop :=
  ∀ thread known, threads thread = some known → known.running = true →
    known.fresh = false ∧ known.space ≠ none ∧ finished ≠ some thread

/-- A thread that changes has to be settled itself. -/
theorem Settled.update {finished' : Option Nat} (settled : Settled threads finished)
    (others : ∀ other, other ≠ thread → finished' = some other → finished = some other)
    (changed : ∀ known, entry = some known → known.running = true →
      known.fresh = false ∧ known.space ≠ none ∧ finished' ≠ some thread) :
    Settled (Function.update threads thread entry) finished' := by
  intro other known found running
  by_cases same : other = thread
  · subst same
    rw [Function.update_self] at found
    exact changed known found running
  · -- The others only have to be told that they have not finished since.
    rw [Function.update_of_ne same] at found
    obtain ⟨seen, loaded, goes⟩ := settled other known found running
    exact ⟨seen, loaded, fun gone => goes (others other same gone)⟩

/-- Nothing is asked of a thread that does not run a program. -/
theorem Settled.update_kernel (settled : Settled threads finished)
    (kernel : ∀ known, entry = some known → known.running = false) :
    Settled (Function.update threads thread entry) finished :=
  settled.update (fun _ _ gone => gone) fun known found running =>
    (Bool.false_ne_true ((kernel known found).symm.trans running)).elim

namespace System

variable {system after : System} {current next : UserThread}

/-- The thread that runs has the machine, and each of the others has what is kept of it. -/
structure Sound (system : System) : Prop where
  current : ∃ known, system.threads system.currentThread = some known ∧ known.fresh = false ∧
    ∀ space, known.running = true → known.space = some space →
      system.pageTable = space.pageTable ∧ system.pageTableSize = space.numPages
  settled : Settled system.threads system.threadToBeDestroyed

/-- Does the thread that is there run a program? -/
theorem running_known (found : system.threads system.currentThread = some known) :
    system.running = known.running := by
  rw [running, found, Option.any_some]

/-- The program that runs has its context in the machine. -/
theorem contexts_running (runs : system.running = true) : system.contexts =
    Function.update (saved system.threads) system.currentThread (some system.machine) := if_pos runs

/-- The contexts are all kept when no program runs. -/
theorem contexts_kernel (kernel : system.running = false) :
    system.contexts = saved system.threads := by
  rw [contexts, kernel, if_neg Bool.false_ne_true]

/-- The thread that runs has no context if it does not run a program. -/
theorem contexts_current_kernel (found : system.threads system.currentThread = some known)
    (kernel : known.running = false) : system.contexts system.currentThread = none := by
  rw [contexts_kernel ((running_known found).trans kernel), saved_known found,
    context_kernel kernel]

/-- A thread that is there has changed. -/
theorem threads_modify {change : UserThread → UserThread}
    (found : system.threads thread = some known) : (system.modify thread change).threads =
      Function.update system.threads thread (some (change known)) := by
  rw [modify, found, Option.map_some]

/-- The running thread has changed. -/
theorem modify_current {change : UserThread → UserThread}
    (found : system.threads thread = some known) :
    (system.modify thread change).threads thread = some (change known) := by
  rw [threads_modify found, Function.update_self]

/-- A thread that does not run a program changes, and still does not run one. -/
theorem modify_kernel {change : UserThread → UserThread}
    (settled : Settled system.threads finished) (found : system.threads thread = some known)
    (kernel : known.running = false) (still : (change known).running = false) :
    Settled (system.modify thread change).threads finished ∧
      saved (system.modify thread change).threads = saved system.threads := by
  rw [threads_modify found]
  refine ⟨settled.update_kernel fun changed same => ?_, saved_update_same ?_⟩
  · cases same
    exact still
  · rw [saved_known found, context_kernel kernel]
    exact context_kernel still

/-- What a proper action does is what the user programs see of it. -/
def Seen (system : System) (action : Action) (after : System) : Prop :=
  Runs.Accepts (Processors.apply id) (Processors.Allows Context.Starts) system.contexts
      (observe system action after) ∧
    after.Sound ∧
    after.contexts = (observe system action after).foldl (Processors.apply id) system.contexts

/-- A user program goes on. -/
theorem Sound.user (sound : system.Sound) {registers : Registers} (runs : system.running = true) :
    Seen system (.user registers) { system with registers } := by
  refine ⟨⟨?_, trivial⟩, ⟨sound.current, sound.settled⟩, ?_⟩
  · change system.contexts system.currentThread = _
    rw [contexts_running runs, Function.update_self]
  · change _ = Function.update system.contexts system.currentThread _
    rw [contexts_running runs, Function.update_idem]
    exact contexts_running runs

/-- Nothing changes for the user programs. -/
theorem contexts_same (current : after.currentThread = system.currentThread)
    (machine : after.machine = system.machine) (running : after.running = system.running)
    (same : saved after.threads = saved system.threads) : after.contexts = system.contexts := by
  rw [contexts, contexts, current, machine, running, same]

/-- A thread is forked, which does not run a program yet. -/
theorem Sound.fork (sound : system.Sound) {garbage : Registers} {space : Option Space}
    {shares : Bool} (unknown : system.threads thread = none) :
    Seen system (.fork thread garbage space shares)
      (system.fork thread garbage space shares) := by
  obtain ⟨current, found, awake, loaded⟩ := sound.current
  have waits : system.currentThread ≠ thread := by
    -- The number of a new thread is not that of a thread that is there.
    rintro rfl
    cases unknown.symm.trans found
  have found' : (system.fork thread garbage space shares).threads system.currentThread =
      some current :=
    (Function.update_of_ne waits _ _).trans found
  refine ⟨trivial, ⟨⟨current, found', awake, loaded⟩, sound.settled.update_kernel ?_⟩,
    contexts_same rfl rfl ?_ (saved_update_same ?_)⟩
  · intro known same
    cases same
    rfl
  · exact (running_known found').trans (running_known found).symm
  · rw [saved, unknown]
    rfl

/-- The running thread gets an address space before it runs a program. -/
theorem Sound.load (sound : system.Sound) {space : Space} {makes : Bool}
    (kernel : system.running = false) :
    Seen system (.load space makes) (system.load space makes) := by
  obtain ⟨current, found, awake, -⟩ := sound.current
  have kernel' : current.running = false := (running_known found).symm.trans kernel
  have found' : (system.load space makes).threads system.currentThread =
      some { current with space := some space, tables := current.tables || makes } :=
    modify_current found
  have still := running_known found'
  have kept : Settled (system.load space makes).threads system.threadToBeDestroyed ∧
      saved (system.load space makes).threads = saved system.threads :=
    modify_kernel sound.settled found kernel' kernel'
  refine ⟨trivial, ⟨⟨_, found', awake, fun _ running => ?_⟩, kept.1⟩,
    contexts_same rfl rfl (still.trans (running_known found).symm) kept.2⟩
  cases kernel'.symm.trans running

/-- A user program begins. -/
theorem Sound.start (sound : system.Sound) {space : Space} {func : Option (BitVec 32)}
    (alive : system.Alive) (kernel : system.running = false)
    (loaded : (system.threads system.currentThread).bind UserThread.space = some space) :
    Seen system (.start func) (system.start space func) := by
  obtain ⟨current, found, awake, -⟩ := sound.current
  have kernel' : current.running = false := (running_known found).symm.trans kernel
  have owned : current.space = some space := by rwa [found, Option.bind_some] at loaded
  have changed : (system.start space func).threads =
      Function.update system.threads system.currentThread (some { current with running := true }) :=
    threads_modify found
  have found' : (system.start space func).threads system.currentThread =
      some { current with running := true } := modify_current found
  have runs : (system.start space func).running = true := running_known found'
  rw [Seen, observe, loaded]
  refine ⟨⟨⟨contexts_current_kernel found kernel', rfl⟩, trivial⟩,
    ⟨⟨_, found', awake, fun other _ same => ?_⟩, ?_⟩, ?_⟩
  · cases owned.symm.trans same
    exact ⟨rfl, rfl⟩
  · rw [changed]
    refine sound.settled.update (fun _ _ gone => gone) fun known same _ => ?_
    cases same
    refine ⟨awake, fun missing => ?_, alive⟩
    cases owned.symm.trans missing
  · -- What was kept of the thread does not matter while it runs.
    rw [contexts_running runs, changed, saved_update, ← contexts_kernel kernel]
    exact Function.update_idem _ _ _

/-- A user program ends. -/
theorem Sound.finish (sound : system.Sound) : Seen system .finish system.finish := by
  obtain ⟨current, found, awake, -⟩ := sound.current
  have changed : system.finish.threads = Function.update system.threads system.currentThread
      (some { current with space := none, running := false }) := threads_modify found
  have found' : system.finish.threads system.currentThread =
      some { current with space := none, running := false } := modify_current found
  have kernel : system.finish.running = false := running_known found'
  have ended : system.finish.contexts =
      Function.update (saved system.threads) system.currentThread none := by
    rw [contexts_kernel kernel, changed, saved_update]
    exact congrArg _ (context_kernel rfl)
  have sound' : system.finish.Sound := by
    refine ⟨⟨_, found', awake, fun _ running => (by cases running)⟩, ?_⟩
    rw [changed]
    refine sound.settled.update (fun other waits gone => ?_) ?_
    · cases gone
      exact (waits rfl).elim
    · intro known same running
      cases same
      cases running
  rw [Seen, observe, ended]
  cases runs : system.running with
  | false =>
    have empty : saved system.threads system.currentThread = none := by
      rw [← contexts_kernel runs]
      exact contexts_current_kernel found ((running_known found).symm.trans runs)
    refine ⟨trivial, sound', ?_⟩
    rw [if_neg Bool.false_ne_true, List.foldl_nil, contexts_kernel runs, ← empty,
      Function.update_eq_self]
  | true =>
    refine ⟨⟨?_, trivial⟩, sound', ?_⟩
    · change system.contexts system.currentThread ≠ none
      rw [contexts_running runs, Function.update_self]
      exact Option.some_ne_none _
    · change _ = Function.update system.contexts system.currentThread none
      rw [contexts_running runs, Function.update_idem]

/-- Between two threads, the contexts of all user programs are kept. -/
structure Idle (contexts : Processors.Contexts Nat Context) (system : System) : Prop where
  saved : saved system.threads = contexts
  settled : Settled system.threads system.threadToBeDestroyed

/-- `Scheduler::Run` saves the context of the program that was running. -/
theorem Sound.save (sound : system.Sound)
    (found : system.threads system.currentThread = some current) :
    Idle system.contexts (system.save current) ∧
      (system.save current).threadToBeDestroyed = system.threadToBeDestroyed ∧
      ∀ other, other ≠ system.currentThread →
        (system.save current).threads other = system.threads other := by
  obtain ⟨_, found', -, placed⟩ := sound.current
  cases found.symm.trans found'
  rw [System.save]
  cases loaded : current.space with
  | none =>
    -- Who has no address space does not run a program, and nothing is to be saved.
    have kernel : system.running = false := by
      rw [running_known found, ← Bool.not_eq_true]
      exact fun running => (sound.settled _ _ found running).2.1 loaded
    exact ⟨⟨(contexts_kernel kernel).symm, sound.settled⟩, rfl, fun _ _ => rfl⟩
  | some space =>
    -- The registers go to the thread, whose address space has the page table of the machine.
    rw [Option.isSome_some, if_pos rfl]
    have changed : (system.modify system.currentThread fun thread =>
        { thread with userRegisters := system.registers }).threads =
        Function.update system.threads system.currentThread
          (some { current with userRegisters := system.registers }) := threads_modify found
    refine ⟨⟨?_, ?_⟩, rfl, fun other waits => ?_⟩
    · rw [changed, saved_update]
      obtain runs | runs := Bool.eq_false_or_eq_true current.running
      · obtain ⟨table, size⟩ := placed space runs loaded
        rw [contexts_running ((running_known found).trans runs), machine, table, size]
        exact congrArg _ (context_user runs loaded)
      · rw [contexts_kernel ((running_known found).trans runs)]
        refine Eq.trans (congrArg _ ?_) (Function.update_eq_self _ _)
        rw [saved_known found, context_kernel runs]
        exact context_kernel runs
    · rw [changed]
      refine sound.settled.update (fun _ _ gone => gone) fun known same running => ?_
      cases same
      exact sound.settled _ current found running
    · rw [changed, Function.update_of_ne waits]

/-- The thread that has finished goes away, which is not the one that has been switched to. -/
theorem Idle.destroy {contexts : Processors.Contexts Nat Context} (idle : Idle contexts system)
    (goes : system.threadToBeDestroyed ≠ some system.currentThread) :
    ∃ after, system.destroy = .ok after ∧ Idle contexts after ∧
      after.currentThread = system.currentThread ∧
      after.threads system.currentThread = system.threads system.currentThread := by
  rw [System.destroy]
  cases finished : system.threadToBeDestroyed with
  | none => exact ⟨system, rfl, idle, rfl, rfl⟩
  | some thread =>
    have other : system.currentThread ≠ thread := by
      rintro rfl
      exact goes finished
    refine ⟨_, if_neg other.symm, ⟨(saved_update_same ?_).trans idle.saved,
      idle.settled.update (fun _ _ gone => (by cases gone)) fun _ gone => (by cases gone)⟩, rfl,
      Function.update_of_ne other _ _⟩
    -- A thread that has finished does not run a program.
    cases found : system.threads thread with
    | none => rw [UserContexts.saved, found]
    | some known =>
      have kernel : known.running = false := by
        rw [← Bool.not_eq_true]
        exact fun running => (idle.settled _ _ found running).2.2 finished
      rw [saved_known found, context_kernel kernel, Option.bind_none]

/-- A thread that has never run before does not run a program yet. -/
theorem Idle.begin {contexts : Processors.Contexts Nat Context} (idle : Idle contexts system)
    (found : system.threads system.currentThread = some next) (fresh : next.fresh = true) :
    system.begin.Sound ∧ system.begin.contexts = contexts := by
  have kernel : next.running = false := by
    -- Who runs a program has been switched to before.
    rw [← Bool.not_eq_true]
    intro running
    cases fresh.symm.trans (idle.settled _ _ found running).1
  have found' : system.begin.threads system.currentThread = some { next with fresh := false } :=
    modify_current found
  have still := running_known found'
  have kept : Settled system.begin.threads system.threadToBeDestroyed ∧
      UserContexts.saved system.begin.threads = UserContexts.saved system.threads :=
    modify_kernel idle.settled found kernel kernel
  refine ⟨⟨⟨_, found', rfl, fun _ running => ?_⟩, kept.1⟩, ?_⟩
  · cases kernel.symm.trans running
  · rw [contexts_kernel (still.trans kernel), kept.2, idle.saved]

/-- A thread that returns from `SWITCH` has its own context again. -/
theorem Idle.restore {contexts : Processors.Contexts Nat Context} (idle : Idle contexts system)
    (found : system.threads system.currentThread = some next) (seen : next.fresh = false) :
    (system.restore next).Sound ∧ (system.restore next).contexts = contexts := by
  rw [System.restore]
  cases loaded : next.space with
  | none =>
    -- The registers stay as the last program has left them, for a thread that does not need them.
    have kernel : next.running = false := by
      rw [← Bool.not_eq_true]
      exact fun running => (idle.settled _ _ found running).2.1 loaded
    refine ⟨⟨⟨next, found, seen, fun _ running => ?_⟩, idle.settled⟩,
      (contexts_kernel ((running_known found).trans kernel)).trans idle.saved⟩
    cases kernel.symm.trans running
  | some space =>
    have found' : ({ system with registers := next.userRegisters }.restoreState space).threads
        system.currentThread = some next := found
    refine ⟨⟨⟨next, found, seen, fun other _ same => ?_⟩, idle.settled⟩, ?_⟩
    · cases loaded.symm.trans same
      exact ⟨rfl, rfl⟩
    · obtain runs | runs := Bool.eq_false_or_eq_true next.running
      · have own := (saved_known found).trans (context_user runs loaded)
        refine (contexts_running ((running_known found').trans runs)).trans ?_
        rw [← idle.saved]
        exact (congrArg _ own.symm).trans (Function.update_eq_self _ _)
      · exact (contexts_kernel ((running_known found').trans runs)).trans idle.saved

/-- `Scheduler::Run` gives each thread back what it had. -/
theorem Sound.run (sound : system.Sound) {nextThread : Nat}
    (proper : system.Proper (.run nextThread)) :
    ∃ after, system.step (.run nextThread) = .ok after ∧ Seen system (.run nextThread) after := by
  obtain ⟨other, there, goes⟩ := proper
  obtain ⟨next, found'⟩ := Option.isSome_iff_exists.mp there
  obtain ⟨current, found, -, -⟩ := sound.current
  obtain ⟨idle, finished, kept⟩ := sound.save found
  have idle' : Idle system.contexts { system.save current with currentThread := nextThread } :=
    ⟨idle.saved, idle.settled⟩
  have arrived : (system.save current).threads nextThread = some next :=
    (kept nextThread other).trans found'
  -- No program has the machine now, and the next thread takes it over.
  have resumed : ∃ after, system.step (.run nextThread) = .ok after ∧ after.Sound ∧
      after.contexts = system.contexts := by
    simp only [step, found, found']
    cases fresh : next.fresh with
    | true => exact ⟨_, rfl, idle'.begin arrived fresh⟩
    | false =>
      obtain ⟨after, destroyed, idle'', same, unchanged⟩ :=
        idle'.destroy (fun gone => goes (finished.symm.trans gone))
      rw [if_neg Bool.false_ne_true, destroyed]
      refine ⟨_, rfl, idle''.restore ?_ fresh⟩
      rw [same, unchanged]
      exact arrived
  obtain ⟨after, stepped, sound', same⟩ := resumed
  refine ⟨after, stepped, ?_⟩
  rw [Seen, observe, same]
  cases runs : system.running with
  | false => exact ⟨trivial, sound', rfl⟩
  | true =>
    -- Who has yielded is to go on from where it is.
    have before : system.contexts system.currentThread = some system.machine := by
      rw [contexts_running runs, Function.update_self]
    refine ⟨⟨before, trivial⟩, sound', ?_⟩
    change _ = Function.update system.contexts system.currentThread (some system.machine)
    rw [← before, Function.update_eq_self]

/-- A proper action can always be taken, and the user programs see what it does. -/
theorem Sound.seen (sound : system.Sound) {action : Action} (proper : system.Proper action) :
    ∃ after, system.step action = .ok after ∧ Seen system action after := by
  cases action with
  | user registers => exact ⟨_, rfl, sound.user proper⟩
  | fork thread garbage space shares =>
    obtain ⟨unknown, equipped⟩ := proper
    have shared : ¬ (shares = true ∧ system.equipped = false) := fun ⟨asked, missing⟩ => by
      simp [equipped asked] at missing
    exact ⟨_, if_neg shared, sound.fork (Option.isNone_iff_eq_none.mp unknown)⟩
  | load space makes => exact ⟨_, rfl, sound.load proper⟩
  | start func =>
    obtain ⟨alive, kernel, there⟩ := proper
    obtain ⟨space, loaded⟩ := Option.isSome_iff_exists.mp there
    simp only [step, loaded]
    exact ⟨_, rfl, sound.start alive kernel loaded⟩
  | run nextThread => exact sound.run proper
  | finish => exact ⟨_, if_pos proper.2, sound.finish⟩

end System

end Nachos.UserContexts
