import Nachos.Threads.Levels
import Nachos.Threads.Scheduling

/-! Every call returns with the interrupt level of its caller, unless `Barrier::Wait` loses it. -/

namespace Nachos.Threads

open Programs

/-- What a routine knows of the interrupt level. -/
structure View where
  level : IntStatus
  oldLevel : Option IntStatus

/-- The level at which a routine may be called: the clock advances with interrupts enabled. -/
def Routine.EntersAt (level : IntStatus) : Routine → Prop
  | .oneTick _ _ => level = .intOn
  | _ => True

/--
What statements do to the view, provided that calls return with the level of their caller.

A routine that is exempt does not save the level twice.
-/
def levelRule (exempt : Bool) : Rule Statement View where
  before
    | .save, post => fun view =>
      (exempt = true → view.oldLevel = none) → post ⟨.intOff, some view.level⟩
    | .restore, post => fun view => ∀ old, view.oldLevel = some old → post ⟨old, some old⟩
    | .changeLevel now, post => fun view => post ⟨now, view.oldLevel⟩
    | .assign change, post => fun view =>
      (∀ kernel, (change kernel).currentThread = kernel.currentThread) ∧ post view
    | .sleep _, post => fun view => view.level = .intOff → post view
    | .run, post => fun view => view.level = .intOff ∧ post view
    | .vanish, _ => fun _ => True
    | .call routine, post => fun view => routine.EntersAt view.level ∧ post view
  mono {statement post weaker view} implied holds := by
    cases statement with
    | save => exact fun allowed => implied _ (holds allowed)
    | restore => exact fun old saved => implied _ (holds old saved)
    | changeLevel now => exact implied _ holds
    | assign change => exact ⟨holds.1, implied _ holds.2⟩
    | sleep place => exact fun disabled => implied _ (holds disabled)
    | run => exact ⟨holds.1, implied _ holds.2⟩
    | vanish => trivial
    | call routine => exact ⟨holds.1, implied _ holds.2⟩

section Code

variable {exempt : Bool} {level : IntStatus} {post : View → Prop} {view : View}

/-- The level is off, and the one on entry is saved. -/
def Saved (level : IntStatus) (view : View) : Prop := view = ⟨.intOff, some level⟩

/-- A piece of code leaves the saved level alone. -/
def Code.Keeps (exempt : Bool) (level : IntStatus) (code : Code) : Prop :=
  ∀ view, Saved level view → code.before (levelRule exempt) (Saved level) view

/-- Code made of pieces that leave the saved level alone. -/
theorem Code.keeps_block {body : List Code} (keeps : ∀ code ∈ body, Code.Keeps exempt level code) :
    Code.Keeps exempt level (.block body) := by
  -- The pieces are run from the first one on.
  induction body with
  | nil => exact fun view saved => saved
  | cons first rest ih =>
    intro view saved
    have later := ih fun code member => keeps code (List.mem_cons_of_mem _ member)
    exact Program.before_mono later (keeps first List.mem_cons_self view saved)

theorem Code.keeps_assign {change : Kernel → Kernel}
    (same : ∀ kernel, (change kernel).currentThread = kernel.currentThread) :
    Code.Keeps exempt level (.assign change) := fun _ saved => ⟨same, saved⟩

theorem Code.keeps_call {routine : Routine} (enters : routine.EntersAt .intOff) :
    Code.Keeps exempt level (.basic (.call routine)) := by
  intro view saved
  rw [Saved] at saved
  subst saved
  exact ⟨enters, rfl⟩

theorem Code.keeps_sleep {place : Place} :
    Code.Keeps exempt level (.basic (.sleep place)) := fun _ saved _ => saved

theorem Code.keeps_skip : Code.Keeps exempt level .skip := fun _ saved => saved

theorem Code.keeps_branch {test : Kernel → Bool} {yes no : Code}
    (keepsYes : Code.Keeps exempt level yes) (keepsNo : Code.Keeps exempt level no) :
    Code.Keeps exempt level (.branch test yes no) :=
  fun view saved => ⟨keepsYes view saved, keepsNo view saved⟩

/-- A waiting thread goes on with interrupts disabled. -/
theorem Code.keeps_await {test : Kernel → Bool} {object : Object} {place : Place} :
    Code.Keeps exempt level (.await test object place) := by
  intro view saved
  -- The body of the loop is the invariant's own proof, piece by piece.
  refine Program.before_loop (Code.keeps_block fun code member => ?_) saved
  simp only [List.mem_cons, List.not_mem_nil, or_false] at member
  rcases member with rfl | rfl
  · exact Code.keeps_assign fun kernel => rfl
  · exact Code.keeps_sleep

/-- The same level is saved again, unless that is not allowed any more. -/
theorem Code.keeps_save (twice : exempt = false → level = .intOff) :
    Code.Keeps exempt level (.basic .save) := by
  intro view saved allowed
  rw [Saved] at saved
  subst saved
  -- An exempt routine saves only once, so it cannot save again here.
  cases exempt with
  | true => exact absurd (allowed rfl) (Option.some_ne_none _)
  | false => rw [Saved, twice rfl]

/-- A routine whose body leaves the saved level alone returns with the level on entry. -/
theorem Code.before_guarded {body : List Code}
    (keeps : ∀ code ∈ body, Code.Keeps exempt level code) :
    (Code.guarded body).before (levelRule exempt) (·.level = level) ⟨level, none⟩ := by
  have ending : ∀ view, Saved level view →
      (Program.block [.basic .restore] : Code).before (levelRule exempt) (·.level = level) view := by
    intro view saved old found
    rw [Saved] at saved
    subst saved
    exact (Option.some.inj found).symm
  -- After its first statement the routine has saved the level of the caller.
  have saving : Code.guarded body = .seq (.basic .save) (.block (body ++ [.basic .restore])) := rfl
  rw [saving, Program.before, Program.before_block_append]
  exact fun _ => Program.before_mono ending (Code.keeps_block keeps _ rfl)

end Code

@[simp] theorem Kernel.wake_currentThread (kernel : Kernel) (object : Object) :
    (kernel.wake object).currentThread = kernel.currentThread := by
  unfold wake
  split <;> rfl

/-- A routine that must not save the level twice. -/
def Routine.isExempt (level : IntStatus) : Routine → Bool
  | .barrierWait _ => level = .intOn
  | _ => false

/-- Handlers signal semaphores one after the other. -/
theorem Code.before_signals {exempt : Bool} {view : View} (semaphores : List SemaphoreName) :
    (Program.block (semaphores.map fun semaphore => .basic (.call (.v semaphore))) : Code).before
      (levelRule exempt) (· = view) view := by
  induction semaphores with
  | nil => rfl
  | cons semaphore rest ih => exact ⟨trivial, ih⟩

/-- A routine that is called at a level it may be called at returns with that level. -/
theorem Routine.restores {routine : Routine} {level : IntStatus} (enters : routine.EntersAt level) :
    routine.code.before (levelRule (routine.isExempt level)) (·.level = level) ⟨level, none⟩ := by
  cases routine with
  | p semaphore =>
    refine Code.before_guarded (List.forall_mem_cons.mpr ⟨Code.keeps_await, ?_⟩)
    exact List.forall_mem_singleton.mpr (Code.keeps_assign fun kernel => rfl)
  | v semaphore =>
    refine Code.before_guarded (List.forall_mem_cons.mpr ⟨?_, ?_⟩)
    · exact Code.keeps_assign fun kernel => kernel.wake_currentThread _
    · exact List.forall_mem_singleton.mpr (Code.keeps_assign fun kernel => rfl)
  | acquire lock =>
    refine Code.before_guarded (List.forall_mem_cons.mpr ⟨Code.keeps_await, ?_⟩)
    refine List.forall_mem_cons.mpr ⟨Code.keeps_assign fun kernel => rfl, ?_⟩
    exact List.forall_mem_singleton.mpr (Code.keeps_assign fun kernel => rfl)
  | release lock =>
    refine Code.before_guarded (List.forall_mem_cons.mpr ⟨?_, ?_⟩)
    · exact Code.keeps_assign fun kernel => kernel.wake_currentThread _
    · exact List.forall_mem_singleton.mpr (Code.keeps_assign fun kernel => rfl)
  | lockMutex mutex =>
    refine Code.before_guarded (List.forall_mem_cons.mpr ⟨Code.keeps_await, ?_⟩)
    exact List.forall_mem_singleton.mpr (Code.keeps_assign fun kernel => rfl)
  | unlockMutex mutex =>
    refine Code.before_guarded (List.forall_mem_cons.mpr ⟨?_, ?_⟩)
    · exact Code.keeps_assign fun kernel => kernel.wake_currentThread _
    · exact List.forall_mem_singleton.mpr (Code.keeps_assign fun kernel => rfl)
  | wait condition lock =>
    refine Code.before_guarded (List.forall_mem_cons.mpr ⟨?_, ?_⟩)
    · exact Code.keeps_branch (Code.keeps_call trivial) Code.keeps_skip
    refine List.forall_mem_cons.mpr ⟨Code.keeps_await, ?_⟩
    refine List.forall_mem_cons.mpr ⟨Code.keeps_assign fun kernel => rfl, ?_⟩
    exact List.forall_mem_singleton.mpr (Code.keeps_call trivial)
  | signal condition lock =>
    refine Code.before_guarded (List.forall_mem_singleton.mpr ?_)
    refine Code.keeps_branch (Code.keeps_branch (Code.keeps_block ?_) Code.keeps_skip)
      Code.keeps_skip
    refine List.forall_mem_cons.mpr ⟨?_, ?_⟩
    · exact Code.keeps_assign fun kernel => kernel.wake_currentThread _
    · exact List.forall_mem_singleton.mpr (Code.keeps_assign fun kernel => rfl)
  | broadcast condition lock =>
    exact ⟨Program.before_loop (fun view same => ⟨trivial, same⟩) rfl, rfl⟩
  | barrierWait barrier =>
    refine Code.before_guarded (List.forall_mem_singleton.mpr ?_)
    refine Code.keeps_branch (Code.keeps_block ?_) (Code.keeps_block ?_)
    · -- The thread waits for the others.
      refine List.forall_mem_cons.mpr ⟨Code.keeps_assign fun kernel => rfl, ?_⟩
      refine List.forall_mem_cons.mpr ⟨Code.keeps_assign fun kernel => rfl, ?_⟩
      exact List.forall_mem_singleton.mpr Code.keeps_sleep
    · -- The thread wakes the others, and saves the level each time.
      refine List.forall_mem_cons.mpr ⟨Code.keeps_assign fun kernel => rfl, ?_⟩
      refine List.forall_mem_singleton.mpr fun view saved => ?_
      refine Program.before_count (Code.keeps_block ?_) saved
      refine List.forall_mem_cons.mpr ⟨Code.keeps_save fun allowed => ?_, ?_⟩
      · cases level with
        | intOff => rfl
        | intOn => cases allowed
      refine List.forall_mem_cons.mpr ⟨?_, ?_⟩
      · exact Code.keeps_assign fun kernel => kernel.wake_currentThread _
      · exact List.forall_mem_singleton.mpr (Code.keeps_assign fun kernel => rfl)
  | yield =>
    refine Code.before_guarded (List.forall_mem_singleton.mpr ?_)
    refine Code.keeps_branch (fun view saved => ⟨?_, saved⟩) Code.keeps_skip
    rw [saved]
  | finish thread =>
    -- Nothing is asked of a routine that does not return.
    refine ⟨⟨fun _ => True, trivial, fun view _ => ⟨⟨fun kernel => rfl, trivial⟩, ?_⟩⟩, trivial⟩
    exact ⟨trivial, trivial⟩
  | oneTick semaphores yieldOnReturn =>
    show Program.before (levelRule _) (.block (semaphores.map _)) _ (View.mk .intOff none)
    refine Program.before_mono (fun view same => ?_) (Code.before_signals semaphores)
    subst same
    cases yieldOnReturn with
    | false => exact enters.symm
    | true => exact ⟨trivial, enters.symm⟩

/-- What is left of a call leads back to the level on entry. -/
def Frame.Steady (frame : Frame) (level : IntStatus) : Prop :=
  before (levelRule (frame.routine.isExempt frame.entry)) frame.rest (·.level = frame.entry)
    ⟨level, frame.oldLevel⟩

/-- A call that begins leads back to the level of its caller. -/
theorem Frame.steady_enter {routine : Routine} {level : IntStatus}
    (enters : routine.EntersAt level) : (Frame.enter routine level).Steady level :=
  Routine.restores enters

/-- Every call on a stack leads back to the level of its caller; the CPU idles with level off. -/
def Settles (strand : Option Thread) : IntStatus → List Frame → Prop
  | level, [] => strand = none → level = .intOff
  | level, frame :: below => frame.Steady level ∧ Settles strand frame.entry below

namespace Cpu

/-- Whoever does not run goes on with interrupts disabled. -/
def levelOf (cpu : Cpu) (strand : Option Thread) : IntStatus :=
  if strand = cpu.kernel.currentThread then cpu.level else .intOff

/-- Every call leads back to the level of its caller. -/
def Settled (cpu : Cpu) : Prop := ∀ strand, Settles strand (cpu.levelOf strand) (cpu.stack strand)

variable {cpu after : Cpu} {frame : Frame} {calls below : List Frame} {action : Action}

/-- What is being run goes on at the level of the machine. -/
theorem Settled.running (settled : cpu.Settled) :
    Settles cpu.kernel.currentThread cpu.level cpu.frames := by
  have running := settled cpu.kernel.currentThread
  rwa [levelOf, if_pos rfl] at running

/-- A step of what is being run concerns no other stack. -/
theorem Settled.update (settled : cpu.Settled)
    (stack : after.stack = Function.update cpu.stack cpu.kernel.currentThread calls)
    (same : after.kernel.currentThread = cpu.kernel.currentThread)
    (settles : Settles cpu.kernel.currentThread after.level calls) : after.Settled := by
  intro strand
  have others := settled strand
  rw [levelOf] at others ⊢
  rw [same, stack]
  -- Only the stack of the running thread is another one.
  by_cases running : strand = cpu.kernel.currentThread
  · rw [if_pos running, running, Function.update_self]
    exact settles
  · rw [if_neg running] at others ⊢
    rw [Function.update_of_ne running]
    exact others

/-- Another thread may go on if interrupts are disabled. -/
theorem Settled.switch (settled : cpu.Settled)
    (stack : after.stack = Function.update cpu.stack cpu.kernel.currentThread calls)
    (disabled : after.level = .intOff)
    (settles : Settles cpu.kernel.currentThread .intOff calls) : after.Settled := by
  intro strand
  have others := settled strand
  -- Whoever runs then, its level is the one that is off.
  have off : after.levelOf strand = .intOff := by rw [levelOf, disabled, ite_self]
  rw [off, stack]
  rw [levelOf] at others
  by_cases running : strand = cpu.kernel.currentThread
  · rw [running, Function.update_self]
    exact settles
  · rw [if_neg running] at others
    rw [Function.update_of_ne running]
    exact others

/-- `Barrier::Wait` saves the level of a caller with interrupts enabled once only. -/
theorem unsaved_of_exempt {rest : List Code} (calls : cpu.frames = frame :: below)
    (next : frame.rest = .basic .save :: rest) (kept : cpu.overwrites .exec = false)
    (exempt : frame.routine.isExempt frame.entry = true) : frame.oldLevel = none := by
  obtain ⟨routine, entry, oldLevel, code⟩ := frame
  subst next
  -- A level that is saved already would be overwritten.
  cases oldLevel with
  | none => rfl
  | some old =>
    -- Only the barrier has an exemption, and that for callers with interrupts enabled.
    cases routine with
    | barrierWait barrier =>
      cases entry with
      | intOn => simp [overwrites, calls] at kept
      | intOff => cases exempt
    | _ => cases exempt

/-- A statement of the innermost call keeps every call on its way back. -/
theorem Settled.perform {statement : Statement} {rest : List Code} (settled : cpu.Settled)
    (calls : cpu.frames = frame :: below) (next : frame.rest = .basic statement :: rest)
    (kept : cpu.overwrites .exec = false)
    (performed : cpu.perform { frame with rest := rest } below statement = .ok after) :
    after.Settled := by
  have running := settled.running
  rw [calls] at running
  obtain ⟨steady, callers⟩ := running
  rw [Frame.Steady, next] at steady
  -- One case for each statement, where the weakest precondition is what is left to show.
  cases statement with
  | save =>
    cases performed
    refine settled.update rfl rfl ⟨steady fun exempt => ?_, callers⟩
    exact unsaved_of_exempt calls next kept exempt
  | restore =>
    cases saved : frame.oldLevel with
    | none => simp [Cpu.perform, saved] at performed
    | some old =>
      simp only [Cpu.perform, saved, Except.ok.injEq] at performed
      subst performed
      -- The saved level becomes the level of the machine.
      exact settled.update rfl rfl ⟨saved ▸ steady old saved, callers⟩
  | changeLevel now =>
    cases performed
    exact settled.update rfl rfl ⟨steady, callers⟩
  | assign change =>
    cases performed
    exact settled.update rfl (steady.1 _) ⟨steady.2, callers⟩
  | sleep place =>
    simp only [Cpu.perform] at performed
    split at performed
    · rename_i thread running disabled
      cases performed
      -- The thread sleeps with interrupts disabled, and goes on so.
      rw [disabled] at steady
      exact settled.switch rfl disabled ⟨steady rfl, callers⟩
    · cases performed
  | run =>
    simp only [Cpu.perform] at performed
    split at performed
    · rename_i thread running
      cases performed
      -- `Run` switches to another thread and comes back with interrupts disabled.
      obtain ⟨disabled, steady⟩ := steady
      refine settled.switch rfl disabled ⟨?_, callers⟩
      rw [Frame.Steady, ← disabled]
      exact steady
    · cases performed
  | vanish =>
    simp only [Cpu.perform] at performed
    split at performed
    · rename_i thread running disabled
      cases performed
      exact settled.switch rfl disabled fun idle => absurd (running.symm.trans idle) (Option.some_ne_none _)
    · cases performed
  | call routine =>
    cases performed
    exact settled.update rfl rfl ⟨Frame.steady_enter steady.1, steady.2, callers⟩

/-- So does everything else that the routine being run does. -/
theorem Settled.exec (settled : cpu.Settled) (kept : cpu.overwrites .exec = false)
    (ran : cpu.exec = .ok after) : after.Settled := by
  have running := settled.running
  cases calls : cpu.frames with
  | nil => simp [Cpu.exec, calls] at ran
  | cons frame below =>
    rw [calls] at running
    obtain ⟨steady, callers⟩ := running
    simp only [Cpu.exec, calls] at ran
    split at ran
    · rename_i returning
      -- The caller goes on at the level that it had.
      rw [Frame.Steady, returning] at steady
      cases ran
      refine settled.update rfl rfl ?_
      exact (show cpu.level = frame.entry from steady) ▸ callers
    · rename_i statement rest next
      exact settled.perform calls next kept ran
    · rename_i code rest basic next
      rw [Frame.Steady, next] at steady
      cases ran
      exact settled.update rfl rfl ⟨before_expand cpu.kernel steady, callers⟩

/-- Every step keeps every call on its way back. -/
theorem Settled.step (settled : cpu.Settled) (kept : cpu.overwrites action = false)
    (stepped : cpu.step action = .ok after) : after.Settled := by
  have running := settled.running
  -- A new call goes on top of a stack; nothing else touches the calls below.
  cases action with
  | exec => exact settled.exec kept stepped
  | call routine =>
    simp only [Cpu.step] at stepped
    split at stepped
    · rename_i thread current calls
      split at stepped
      · rename_i own
        cases stepped
        refine settled.update rfl rfl ⟨Frame.steady_enter ?_, ?_⟩
        · cases routine with
          | oneTick => cases own
          | _ => trivial
        · rwa [calls] at running
      · cases stepped
    · cases stepped
  | outside change now =>
    simp only [Cpu.step] at stepped
    split at stepped
    · rename_i thread current calls
      split at stepped
      · rename_i same
        cases stepped
        -- Outside of every routine the stack is empty, and stays so.
        have stack := (Function.update_eq_self cpu.kernel.currentThread cpu.stack).symm
        rw [show cpu.stack cpu.kernel.currentThread = [] from calls] at stack
        refine settled.update stack (same.trans current.symm) ?_
        exact fun idle => absurd (current.symm.trans idle) (Option.some_ne_none _)
      · cases stepped
    · cases stepped
  | oneTick semaphores yieldOnReturn =>
    simp only [Cpu.step] at stepped
    split at stepped
    · rename_i thread current enabled
      cases stepped
      -- The timer interrupts the routine that runs, above its calls.
      have steady : (Frame.enter (.oneTick semaphores yieldOnReturn) .intOn).Steady cpu.level :=
        by rw [enabled]; exact Frame.steady_enter rfl
      exact settled.update rfl rfl ⟨steady, enabled ▸ running⟩
    · cases stepped
  | idle semaphore =>
    simp only [Cpu.step] at stepped
    split at stepped
    · rename_i current calls
      split at stepped
      · rename_i disabled
        cases stepped
        have steady : (Frame.enter (.v semaphore) .intOff).Steady cpu.level :=
          disabled ▸ Frame.steady_enter trivial
        exact settled.update rfl rfl ⟨steady, fun _ => rfl⟩
      · cases stepped
    · cases stepped
  | dispatch =>
    simp only [Cpu.step] at stepped
    split at stepped
    · rename_i current calls ready
      cases stepped
      have stack := (Function.update_eq_self cpu.kernel.currentThread cpu.stack).symm
      rw [show cpu.stack cpu.kernel.currentThread = [] from calls] at stack
      rw [calls] at running
      exact settled.switch stack (running current) fun _ => rfl
    · cases stepped

/-- At first there is no call. -/
theorem Quiet.settled (quiet : cpu.Quiet) : cpu.Settled := by
  intro strand
  rw [quiet.empty, levelOf]
  intro idle
  rw [if_neg]
  intro current
  exact quiet.running (current.symm.trans idle)

/-- What a step returns from had the level that it has now. -/
theorem Settled.returns (settled : cpu.Settled) {call : Return}
    (returned : call ∈ cpu.returns action after) : call.level = call.entry := by
  cases action with
  | exec =>
    simp only [Cpu.returns] at returned
    split at returned
    · rename_i routine entry oldLevel below calls
      -- At its end a routine is at the level of its entry.
      have running := settled.running
      rw [calls] at running
      rw [List.mem_singleton.mp returned]
      exact running.1
    · cases returned
  | call | outside | oneTick | idle | dispatch => cases returned

/--
Every call that returns has the interrupt level that it had on entry.

This holds in every run in which `Barrier::Wait` never overwrites the level that it has saved.
-/
theorem restored_of_not_overwritten {history : List Return}
    (traced : Runs.Traced step Quiet (fun cpu action => cpu.overwrites action = false) returns
      cpu history) :
    ∀ call ∈ history, call.level = call.entry := by
  have invariant := Runs.Traced.invariant
    (fun cpu history => cpu.Settled ∧ ∀ call ∈ history, call.level = call.entry)
    (fun cpu quiet => ⟨Quiet.settled quiet, fun call member => absurd member List.not_mem_nil⟩)
    ?_ traced
  · exact invariant.2
  -- A step returns from at most one call.
  intro cpu action after history held kept stepped
  refine ⟨held.1.step kept stepped, fun call member => ?_⟩
  rcases List.mem_append.mp member with earlier | now
  · exact held.2 call earlier
  · exact held.1.returns now

/-- The main thread runs with interrupts enabled. -/
def first : Cpu := ⟨firstKernel, .intOn, fun _ => []⟩

/-- It sleeps at a semaphore, and the handler of a device wakes it. -/
def sleepAndWake : List Action :=
  [.outside (·.construct (.semaphore (.named 0)) 0) .intOn, .call (.p (.named 0))] ++
    List.replicate 8 .exec ++ .idle (.named 0) :: List.replicate 10 .exec ++
    .dispatch :: List.replicate 8 .exec

/-- Both the handler and the thread find their level again. -/
theorem restored_sleepAndWake : ∃ cpu,
    Runs.run step first sleepAndWake = .ok cpu ∧
      Runs.record step returns first sleepAndWake =
        [⟨.v (.named 0), .intOff, .intOff⟩, ⟨.p (.named 0), .intOn, .intOn⟩] ∧
      ∀ call ∈ Runs.record step returns first sleepAndWake, call.level = call.entry := by
  obtain ⟨cpu, ran, -⟩ := Runs.exists_of_runsTo
    (show Runs.runsTo step first sleepAndWake (fun _ => true) = true by decide +kernel)
  have quiet : Runs.Traced step Quiet (fun cpu action => cpu.overwrites action = false) returns
      first [] := .start ⟨Option.some_ne_none _, rfl⟩
  -- No barrier is used, so that no level is overwritten.
  have kept : Runs.Guarded step (fun cpu action => cpu.overwrites action = false) first
      sleepAndWake := by decide +kernel
  have traced := quiet.extend kept ran
  rw [List.nil_append] at traced
  exact ⟨cpu, ran, by decide +kernel, restored_of_not_overwritten traced⟩

/-- Two threads meet at a barrier of size one. -/
def meetAtBarrier : List Action :=
  [.outside (·.construct (.barrier 0) 1) .intOn, .outside (·.readyToRun 1) .intOn,
    .call (.barrierWait 0)] ++ List.replicate 10 .exec ++
    [.outside id .intOn, .call (.barrierWait 0)] ++ List.replicate 21 .exec

/-- The thread that wakes the other one returns with interrupts disabled. -/
theorem not_restored_meetAtBarrier :
    Quiet first ∧ (∃ cpu, Runs.run step first meetAtBarrier = .ok cpu) ∧
      ⟨.barrierWait 0, .intOn, .intOff⟩ ∈ Runs.record step returns first meetAtBarrier := by
  refine ⟨⟨Option.some_ne_none _, rfl⟩, ?_, by decide +kernel⟩
  -- The run comes to its end without a fault.
  obtain ⟨cpu, ran, -⟩ := Runs.exists_of_runsTo
    (show Runs.runsTo step first meetAtBarrier (fun _ => true) = true by decide +kernel)
  exact ⟨cpu, ran⟩

end Cpu

end Nachos.Threads
