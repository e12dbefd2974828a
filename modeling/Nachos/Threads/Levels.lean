import Nachos.Lib.Programs
import Nachos.Lib.Runs
import Nachos.Machine.Interrupt
import Nachos.Threads.Kernel

/-! The primitives statement by statement, with the interrupt level that they save and restore. -/

namespace Nachos.Threads

open Programs

/-- A routine of the kernel that runs with interrupts disabled, for some time at least. -/
inductive Routine where
  | p (semaphore : SemaphoreName)
  | v (semaphore : SemaphoreName)
  | acquire (lock : Nat)
  | release (lock : Nat)
  | lockMutex (mutex : Nat)
  | unlockMutex (mutex : Nat)
  | wait (condition lock : Nat)
  | signal (condition lock : Nat)
  | broadcast (condition lock : Nat)
  | barrierWait (barrier : Nat)
  /-- `Thread::Yield`. -/
  | yield
  /-- `Thread::Finish` of a thread. -/
  | finish (thread : Thread)
  /-- `Interrupt::OneTick`; the handlers signal semaphores, and may have set `yieldOnReturn`. -/
  | oneTick (semaphores : List SemaphoreName) (yieldOnReturn : Bool)
  deriving DecidableEq, Repr

/-- A statement of a routine; `oldLevel` is the local variable of the routine. -/
inductive Statement where
  /-- `oldLevel = interrupt->SetLevel(IntOff)`. -/
  | save
  /-- `interrupt->SetLevel(oldLevel)`. -/
  | restore
  /-- The level is set, and the old one is forgotten. -/
  | changeLevel (now : IntStatus)
  /-- Members of objects, or the ready list, are changed. -/
  | assign (change : Kernel → Kernel)
  /-- `currentThread->Sleep()`. -/
  | sleep (place : Place)
  /-- `Yield` gives the CPU to the first ready thread. -/
  | run
  /-- The `Sleep` of `Thread::Finish`, from which no thread returns. -/
  | vanish
  | call (routine : Routine)

/-- The code of a routine. -/
abbrev Code := Program Kernel Statement

namespace Kernel

/-- `queue->Append(currentThread)`. -/
def append (object : Object) (kernel : Kernel) : Kernel :=
  { kernel with queue :=
    Function.update kernel.queue object (kernel.queue object ++ kernel.currentThread.toList) }

/-- `lock->isHeldByCurrentThread()`. -/
def isHeld (lock : Nat) (kernel : Kernel) : Bool := kernel.currentThread.any (kernel.isHeldBy lock)

end Kernel

namespace Code

/-- A statement that changes the kernel. -/
def assign (change : Kernel → Kernel) : Code := .basic (.assign change)

/-- The loop in which a thread waits: while a test holds it joins the queue and sleeps. -/
def await (test : Kernel → Bool) (object : Object) (place : Place) : Code :=
  .loop test (.block [assign (·.append object), .basic (.sleep place)])

/-- The body of a routine between saving the level and restoring it. -/
def guarded (body : List Code) : Code :=
  .block (.basic .save :: body ++ [.basic .restore])

/-- `Semaphore::P`. -/
def p (semaphore : SemaphoreName) : Code :=
  guarded [await (·.value semaphore = 0) (.semaphore semaphore) (.inP semaphore),
    assign fun kernel => { kernel with
      value := Function.update kernel.value semaphore (kernel.value semaphore - 1) }]

/-- `Semaphore::V`. -/
def v (semaphore : SemaphoreName) : Code :=
  guarded [assign (·.wake (.semaphore semaphore)),
    assign fun kernel => { kernel with
      value := Function.update kernel.value semaphore (kernel.value semaphore + 1) }]

/-- `Lock::Acquire`. -/
def acquire (lock : Nat) : Code :=
  guarded [await (fun kernel => !kernel.available lock) (.lock lock) (.inAcquire lock),
    assign fun kernel => { kernel with
      available := Function.update kernel.available lock false },
    assign fun kernel => { kernel with
      owner := Function.update kernel.owner lock kernel.currentThread }]

/-- `Lock::Release`. -/
def release (lock : Nat) : Code :=
  guarded [assign (·.wake (.lock lock)),
    assign fun kernel => { kernel with
      available := Function.update kernel.available lock true }]

/-- `Mutex::Lock`. -/
def lockMutex (mutex : Nat) : Code :=
  guarded [await (fun kernel => !kernel.mutexValue mutex) (.mutex mutex) (.inLock mutex),
    assign fun kernel => { kernel with
      mutexValue := Function.update kernel.mutexValue mutex false }]

/-- `Mutex::Unlock`. -/
def unlockMutex (mutex : Nat) : Code :=
  guarded [assign (·.wake (.mutex mutex)),
    assign fun kernel => { kernel with
      mutexValue := Function.update kernel.mutexValue mutex true }]

/-- `Condition::Wait`, which calls the routines of the lock with interrupts disabled. -/
def wait (condition lock : Nat) : Code :=
  guarded [.branch (·.isHeld lock) (.basic (.call (.release lock))) .skip,
    await (·.isBusy condition) (.condition condition) (.inWait condition lock),
    assign fun kernel => { kernel with
      isBusy := Function.update kernel.isBusy condition true },
    .basic (.call (.acquire lock))]

/-- `Condition::Signal`. -/
def signal (condition lock : Nat) : Code :=
  guarded [.branch (·.isHeld lock)
    (.branch (fun kernel => !(kernel.queue (.condition condition)).isEmpty)
      (.block [assign (·.wake (.condition condition)),
        assign fun kernel => { kernel with
          isBusy := Function.update kernel.isBusy condition false }])
      .skip)
    .skip]

/-- `Condition::Broadcast`, which saves no level itself. -/
def broadcast (condition lock : Nat) : Code :=
  .branch (·.isHeld lock)
    (.loop (fun kernel => (kernel.queue (.condition condition)).isEmpty)
      (.basic (.call (.signal condition lock))))
    .skip

/-- `Barrier::Wait`, which saves the level again in every turn of the loop that wakes threads. -/
def barrierWait (barrier : Nat) : Code :=
  let increment := assign fun kernel => { kernel with
    count := Function.update kernel.count barrier (kernel.count barrier + 1) }
  guarded [.branch (fun kernel => kernel.count barrier < kernel.size barrier)
    (.block [increment, assign (·.append (.barrier barrier)), .basic (.sleep (.inBarrier barrier))])
    (.block [increment, .count 0 (·.size barrier)
      (.block [.basic .save, assign (·.wake (.barrier barrier)),
        assign fun kernel => { kernel with
          count := Function.update kernel.count barrier 0 }])])]

/-- `Thread::Yield`. -/
def yield : Code :=
  guarded [.branch (fun kernel => !kernel.readyList.isEmpty) (.basic .run) .skip]

/-- `Thread::Finish`. -/
def finish (thread : Thread) : Code :=
  let semaphore := SemaphoreName.ofThread thread
  .block [.basic (.changeLevel .intOff),
    .branch (fun kernel => kernel.life (.semaphore semaphore) ≠ .unborn)
      (.block [.loop (·.value semaphore ≠ 1) (.basic (.call (.v semaphore))),
        assign (·.destruct (.semaphore semaphore))])
      .skip,
    .basic .vanish]

/-- `Interrupt::OneTick`, as far as it concerns threads. -/
def oneTick (semaphores : List SemaphoreName) (yieldOnReturn : Bool) : Code :=
  .block [.basic (.changeLevel .intOff),
    .block (semaphores.map fun semaphore => .basic (.call (.v semaphore))),
    .basic (.changeLevel .intOn),
    if yieldOnReturn then .basic (.call .yield) else .skip]

end Code

/-- The code of every routine. -/
def Routine.code : Routine → Code
  | .p semaphore => Code.p semaphore
  | .v semaphore => Code.v semaphore
  | .acquire lock => Code.acquire lock
  | .release lock => Code.release lock
  | .lockMutex mutex => Code.lockMutex mutex
  | .unlockMutex mutex => Code.unlockMutex mutex
  | .wait condition lock => Code.wait condition lock
  | .signal condition lock => Code.signal condition lock
  | .broadcast condition lock => Code.broadcast condition lock
  | .barrierWait barrier => Code.barrierWait barrier
  | .yield => Code.yield
  | .finish thread => Code.finish thread
  | .oneTick semaphores yieldOnReturn => Code.oneTick semaphores yieldOnReturn

/-- Does a thread call this routine itself, outside of the others? -/
def Routine.isCalledBy (thread : Thread) : Routine → Bool
  | .oneTick _ _ => false
  | .finish finished => finished = thread
  | _ => true

/-- The frame of a call on the stack of a thread. -/
structure Frame where
  routine : Routine
  /-- The interrupt level when the routine was called. -/
  entry : IntStatus
  /-- The variable `oldLevel`, once it has a value. -/
  oldLevel : Option IntStatus
  /-- What is left to be run. -/
  rest : List Code

/-- The frame of a call that begins. -/
def Frame.enter (routine : Routine) (level : IntStatus) : Frame :=
  ⟨routine, level, none, [routine.code]⟩

/-- The kernel, the interrupt level and the stacks. -/
structure Cpu where
  kernel : Kernel
  /-- `Interrupt::level`. -/
  level : IntStatus
  /-- The calls that a thread is in, the innermost one first; those of the idle CPU have no thread. -/
  stack : Option Thread → List Frame

namespace Cpu

/-- The calls that are being run. -/
def frames (cpu : Cpu) : List Frame := cpu.stack cpu.kernel.currentThread

/-- The stack of what is being run is replaced. -/
def setFrames (cpu : Cpu) (frames : List Frame) : Cpu :=
  { cpu with stack := Function.update cpu.stack cpu.kernel.currentThread frames }

/-- Run a basic statement of the innermost call, whose rest is what follows the statement. -/
def perform (cpu : Cpu) (frame : Frame) (below : List Frame) : Statement → Except Fault Cpu
  | .save =>
    .ok { cpu.setFrames ({ frame with oldLevel := some cpu.level } :: below) with level := .intOff }
  | .restore =>
    match frame.oldLevel with
    | none => .error .disabled
    | some old => .ok { cpu.setFrames (frame :: below) with level := old }
  | .changeLevel now => .ok { cpu.setFrames (frame :: below) with level := now }
  | .assign change => .ok { cpu.setFrames (frame :: below) with kernel := change cpu.kernel }
  | .sleep place =>
    match cpu.kernel.currentThread, cpu.level with
    | some thread, .intOff =>
      .ok { cpu.setFrames (frame :: below) with kernel := cpu.kernel.sleep thread place }
    | _, _ => .error .assertion
  | .run =>
    match cpu.kernel.currentThread with
    | some thread => .ok { cpu.setFrames (frame :: below) with kernel := cpu.kernel.yield thread }
    | none => .error .assertion
  | .vanish =>
    match cpu.kernel.currentThread, cpu.level with
    | some thread, .intOff =>
      .ok { cpu.setFrames [] with kernel := cpu.kernel.sleep thread .finished }
    | _, _ => .error .assertion
  | .call routine => .ok (cpu.setFrames (.enter routine cpu.level :: frame :: below))

/-- Run the next statement, or return from a call that has nothing left to run. -/
def exec (cpu : Cpu) : Except Fault Cpu :=
  match cpu.frames with
  | [] => .error .disabled
  | frame :: below =>
    match frame.rest with
    | [] => .ok (cpu.setFrames below)
    | .basic statement :: rest => cpu.perform { frame with rest := rest } below statement
    | code :: rest =>
      .ok (cpu.setFrames ({ frame with rest := code.expand cpu.kernel ++ rest } :: below))

/-- What can happen next. -/
inductive Action where
  /-- The routine that is being run goes on. -/
  | exec
  /-- The running thread calls a routine. -/
  | call (routine : Routine)
  /-- The running thread does something else outside of the routines, and may set the level. -/
  | outside (change : Kernel → Kernel) (now : IntStatus)
  /-- The clock advances while interrupts are enabled. -/
  | oneTick (semaphores : List SemaphoreName) (yieldOnReturn : Bool)
  /-- `Interrupt::Idle` calls the handler of a device, which signals a semaphore. -/
  | idle (semaphore : SemaphoreName)
  /-- The idle CPU finds a ready thread. -/
  | dispatch

/-- One step of the system. -/
def step (cpu : Cpu) : Action → Except Fault Cpu
  | .exec => cpu.exec
  | .call routine =>
    match cpu.kernel.currentThread, cpu.frames with
    | some thread, [] =>
      if routine.isCalledBy thread then .ok (cpu.setFrames [.enter routine cpu.level])
      else .error .disabled
    | _, _ => .error .disabled
  | .outside change now =>
    match cpu.kernel.currentThread, cpu.frames with
    | some thread, [] =>
      if (change cpu.kernel).currentThread = some thread then
        .ok { cpu with kernel := change cpu.kernel, level := now }
      else .error .disabled
    | _, _ => .error .disabled
  | .oneTick semaphores yieldOnReturn =>
    match cpu.kernel.currentThread, cpu.level with
    | some _, .intOn =>
      .ok (cpu.setFrames (.enter (.oneTick semaphores yieldOnReturn) .intOn :: cpu.frames))
    | _, _ => .error .disabled
  | .idle semaphore =>
    match cpu.kernel.currentThread, cpu.frames with
    | none, [] =>
      if cpu.level = .intOff then .ok (cpu.setFrames [.enter (.v semaphore) .intOff])
      else .error .assertion
    | _, _ => .error .disabled
  | .dispatch =>
    match cpu.kernel.currentThread, cpu.frames, cpu.kernel.readyList with
    | none, [], _ :: _ => .ok { cpu with kernel := cpu.kernel.dispatch }
    | _, _, _ => .error .disabled

/-- A call that has returned, with the level on entry and the level on return. -/
structure Return where
  routine : Routine
  entry : IntStatus
  level : IntStatus
  deriving DecidableEq, Repr

/-- The call that a step returns from, if any. -/
def returns (cpu : Cpu) (action : Action) (_ : Cpu) : List Return :=
  match action, cpu.frames with
  | .exec, ⟨routine, entry, _, []⟩ :: _ => [⟨routine, entry, cpu.level⟩]
  | _, _ => []

/--
Does the next step overwrite the level that `Barrier::Wait` has saved when it was called?

This counts if the caller had interrupts enabled.
-/
def overwrites (cpu : Cpu) : Action → Bool
  | .exec =>
    match cpu.frames with
    | ⟨.barrierWait _, .intOn, some _, .basic .save :: _⟩ :: _ => true
    | _ => false
  | _ => false

/-- A thread runs, and no thread is in a routine; nothing is said about the objects. -/
structure Quiet (cpu : Cpu) : Prop where
  running : cpu.kernel.currentThread ≠ none
  empty : cpu.stack = fun _ => []

end Cpu

end Nachos.Threads
