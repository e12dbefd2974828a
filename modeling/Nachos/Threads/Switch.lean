import Nachos.Lib.Processors
import Nachos.Lib.X86

/-! `switch.s` and `switch.h` for 64-bit hosts, `StackAllocate`, and the threads that use them. -/

namespace Nachos.Threads.Switch

open X86

/-- The offsets of the registers from the beginning of the thread object. -/
def offset : Reg → Nat
  | .rsp => 0
  | .rax => 8
  | .rbx => 16
  | .rcx => 24
  | .rdx => 32
  | .rbp => 40
  | .rsi => 48
  | .rdi => 56
  | .r8 => 72
  | .r9 => 80
  | .r10 => 88
  | .r11 => 96
  | .r12 => 104
  | .r13 => 112
  | .r14 => 120
  | .r15 => 128

/-- `_PC`. -/
def pc : Nat := 64

/-- `PCState`. -/
def pcState : Nat := pc / 8 - 1

/-- `InitialPCState`. -/
def initialPCState : Nat := offset .rsi / 8 - 1

/-- `InitialArgState`. -/
def initialArgState : Nat := offset .rbx / 8 - 1

/-- `WhenDonePCState`. -/
def whenDonePCState : Nat := offset .rdi / 8 - 1

/-- `StartupPCState`. -/
def startupPCState : Nat := offset .rax / 8 - 1

/-- `ThreadRoot`. -/
def threadRoot : List Instr :=
  [.push .rbp,
    .move .rsp .rbp,
    .push .rdi,
    .push .rsi,
    .call .rax,
    .move .rbx .rdi,
    .pop .rsi,
    .call .rsi,
    .pop .rsi,
    .call .rsi,
    -- Not reached.
    .move .rbp .rsp,
    .pop .rbp,
    .ret]

/-- `SWITCH` up to its `ret`, with `t1` in `rdi` and `t2` in `rsi`. -/
def switch : List Instr :=
  [.store .rax (offset .rax) .rdi,
    .store .rbx (offset .rbx) .rdi,
    .store .rcx (offset .rcx) .rdi,
    .store .rdx (offset .rdx) .rdi,
    .store .rsi (offset .rsi) .rdi,
    .store .rdi (offset .rdi) .rdi,
    .store .rbp (offset .rbp) .rdi,
    .store .rsp (offset .rsp) .rdi,
    -- The return address goes from the stack to the pc storage.
    .load 0 .rsp .rax,
    .store .rax pc .rdi,
    .store .r8 (offset .r8) .rdi,
    .store .r9 (offset .r9) .rdi,
    .store .r10 (offset .r10) .rdi,
    .store .r11 (offset .r11) .rdi,
    .store .r12 (offset .r12) .rdi,
    .store .r13 (offset .r13) .rdi,
    .store .r14 (offset .r14) .rdi,
    .store .r15 (offset .r15) .rdi,
    .load (offset .rbx) .rsi .rbx,
    .load (offset .rcx) .rsi .rcx,
    .load (offset .rdx) .rsi .rdx,
    .load (offset .rdi) .rsi .rdi,
    .load (offset .rbp) .rsi .rbp,
    .load (offset .rsp) .rsi .rsp,
    .load (offset .r8) .rsi .r8,
    .load (offset .r9) .rsi .r9,
    .load (offset .r10) .rsi .r10,
    .load (offset .r11) .rsi .r11,
    .load (offset .r12) .rsi .r12,
    .load (offset .r13) .rsi .r13,
    .load (offset .r14) .rsi .r14,
    .load (offset .r15) .rsi .r15,
    -- The return address goes from the pc storage to the stack.
    .load pc .rsi .rax,
    .store .rax 0 .rsp,
    .move .rsi .rax,
    .load (offset .rsi) .rsi .rsi,
    .load (offset .rax) .rax .rax]

/-- `SWITCH`: where it returns to, and what the registers and the memory are there. -/
def doSwitch (cpu : Core) : Option (Word × Core) := do
  let cpu ← cpu.run switch
  cpu.ret

/-- Where the linker has put the routines that a new thread runs. -/
structure Linked where
  threadRoot : Word
  interruptEnable : Word
  threadFinish : Word

/-- `STACK_FENCEPOST`. -/
def stackFencepost : Word := 0xdeadbeef

/-- `StackSize`, in words. -/
def stackSize : Nat := 4 * 1024

/-- `machineState[index]` of the thread object at an address. -/
def machineState (thread : Word) (index : Nat) : Word := field thread (8 + 8 * index)

/-- `Thread::StackAllocate` of a thread object, with the array that was allocated for the stack. -/
def stackAllocate (linked : Linked) (thread stack func arg : Word) (memory : Word → Word) :
    Word → Word :=
  let stackTop := field stack (8 * (stackSize - 4)) - 8
  let memory := Function.update memory (field thread (offset .rsp)) stackTop
  let memory := Function.update memory stackTop linked.threadRoot
  let memory := Function.update memory stack stackFencepost
  let memory := Function.update memory (machineState thread pcState) linked.threadRoot
  let memory := Function.update memory (machineState thread startupPCState) linked.interruptEnable
  let memory := Function.update memory (machineState thread initialPCState) func
  let memory := Function.update memory (machineState thread initialArgState) arg
  Function.update memory (machineState thread whenDonePCState) linked.threadFinish

/-- The memory that belongs to a thread: its object, and the words of its stack. -/
structure Home where
  thread : Word
  stack : Word → Prop

/-- The words of the thread object at an address that are written and read here. -/
def InObject (thread address : Word) : Prop :=
  address = field thread pc ∨ ∃ reg, address = field thread (offset reg)

/-- The words of a thread object. -/
def Home.object (home : Home) (address : Word) : Prop := InObject home.thread address

/-- The processor, and the threads that share it. -/
structure System where
  cpu : Core
  /-- The next instruction of the running thread. -/
  rip : Word
  currentThread : Nat
  homes : Nat → Option Home

/-- A thread with the function that it is forked for, and its argument. -/
structure Task where
  func : Word
  arg : Word

/-- What can happen next. -/
inductive Action where
  /-- The running thread does something on its own. -/
  | compute (cpu : Core) (rip : Word)
  /-- `Thread::Fork` of a new thread, whose object and stack have just been allocated. -/
  | fork (thread : Nat) (object stack : Word) (task : Task)
  /-- `Scheduler::Run` has called `SWITCH(currentThread, nextThread)`. -/
  | switch (nextThread : Nat)
  /-- A thread that has finished is deleted, with its stack. -/
  | delete (thread : Nat)

/-- The stack that `StackAllocate` makes. -/
def allocated (stack address : Word) : Prop :=
  ∃ index, index < stackSize ∧ address = field stack (8 * index)

namespace System

/-- One step of all threads together. -/
def step (linked : Linked) (system : System) : Action → Except Unit System
  | .compute cpu rip => .ok { system with cpu, rip }
  | .fork thread object stack task => .ok { system with
      cpu := { system.cpu with
        memory := stackAllocate linked object stack task.func task.arg system.cpu.memory }
      homes := Function.update system.homes thread (some ⟨object, allocated stack⟩) }
  | .switch nextThread =>
    match doSwitch system.cpu with
    | none => .error ()
    | some (rip, cpu) => .ok { system with cpu, rip, currentThread := nextThread }
  | .delete thread => .ok { system with homes := Function.update system.homes thread none }

/-- The memory of a new thread is that of no other one, and holds words. -/
structure Fits (system : System) (home : Home) : Prop where
  aligned : Aligned home.thread
  inside : ∀ address, home.stack address → ¬ home.object address
  objectWords : ∀ thread other, system.homes thread = some other → ∀ address,
    home.object address → ¬ other.object address ∧ ¬ other.stack address
  stackWords : ∀ thread other, system.homes thread = some other → ∀ address,
    home.stack address → ¬ other.object address ∧ ¬ other.stack address

/-- Threads do not write to the objects and the stacks of each other, and call `SWITCH` properly. -/
def Proper (system : System) : Action → Prop
  | .compute cpu _ => ∀ thread home, system.homes thread = some home →
      thread ≠ system.currentThread → ∀ address, home.object address ∨ home.stack address →
        cpu.memory address = system.cpu.memory address
  | .fork thread object stack _ => system.homes thread = none ∧ Aligned stack ∧
      system.Fits ⟨object, allocated stack⟩
  | .switch nextThread => ∃ old new, system.homes system.currentThread = some old ∧
      system.homes nextThread = some new ∧ nextThread ≠ system.currentThread ∧
      system.cpu.regs .rdi = old.thread ∧ system.cpu.regs .rsi = new.thread ∧
      -- The return address is on the stack of the caller.
      Aligned (system.cpu.regs .rsp) ∧ old.stack (system.cpu.regs .rsp)
  | .delete thread => system.homes thread ≠ none ∧ thread ≠ system.currentThread

end System

/-- What a thread sees of the processor: its registers, its next instruction, and its stack. -/
structure Context where
  regs : Reg → Word
  rip : Word
  stack : Word → Option Word

open Classical in
/-- The words of a stack. -/
noncomputable def Home.words (home : Home) (memory : Word → Word) (address : Word) : Option Word :=
  if home.stack address then some (memory address) else none

/-- The context in which a thread that does not run will go on. -/
noncomputable def Home.resumed (home : Home) (memory : Word → Word) : Context where
  regs := Function.update (fun reg => memory (field home.thread (offset reg))) .rsp
    (memory (field home.thread (offset .rsp)) + 8)
  rip := memory (field home.thread pc)
  stack := home.words memory

/-- The context of each thread. -/
noncomputable def System.contexts (system : System) : Processors.Contexts Nat Context := fun thread =>
  (system.homes thread).map fun home =>
    if thread = system.currentThread then
      ⟨system.cpu.regs, system.rip, home.words system.cpu.memory⟩
    else home.resumed system.cpu.memory

/-- A call of `SWITCH` returns, and otherwise changes nothing. -/
def Context.back (context : Context) : Context where
  regs := Function.update context.regs .rsp (context.regs .rsp + 8)
  rip := (context.stack (context.regs .rsp)).getD 0
  stack := context.stack

/-- A new thread begins in `ThreadRoot`, with all that this routine expects in its registers. -/
def Context.Starts (linked : Linked) (task : Task) (context : Context) : Prop :=
  context.rip = linked.threadRoot ∧ context.regs .rax = linked.interruptEnable ∧
    context.regs .rbx = task.arg ∧ context.regs .rsi = task.func ∧
    context.regs .rdi = linked.threadFinish

namespace System

/-- What the threads see of a step. -/
noncomputable def observe (system : System) (action : Action) (after : System) :
    List (Processors.Event Nat Context Task) :=
  match action with
  | .compute _ _ =>
    match system.contexts system.currentThread, after.contexts system.currentThread with
    | some before, some next => [.went system.currentThread before next]
    | _, _ => []
  | .fork thread _ _ task => (after.contexts thread).toList.map (.began thread task)
  | .switch _ => (system.contexts system.currentThread).toList.map
      (.yielded system.currentThread)
  | .delete thread => [.ended thread]

end System

end Nachos.Threads.Switch
