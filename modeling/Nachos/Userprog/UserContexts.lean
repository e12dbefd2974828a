import Nachos.Lib.Processors
import Nachos.Machine.Mipssim

/-! User programs that share the registers of the machine, which `Scheduler::Run` saves for them. -/

namespace Nachos.UserContexts

/-- `registers` and `userRegisters`. -/
abbrev Registers := Fin numTotalRegs → BitVec 32

/-- `StackReg`. -/
def stackReg : Nat := 29

/-- `RetAddrReg`. -/
def retAddrReg : Nat := 31

/-- `Machine::WriteRegister`, for numbers that pass its `ASSERT`. -/
def writeRegister (registers : Registers) (num : Nat) (value : BitVec 32) : Registers :=
  fun register => if register = num then value else registers register

/-- The page table of an `AddrSpace`, of which only the address matters here, and its size. -/
structure Space where
  pageTable : Nat
  numPages : BitVec 32
  deriving DecidableEq, Repr

/-- The fields of a `Thread` that user programs need. -/
structure UserThread where
  userRegisters : Registers
  space : Option Space
  /-- `SWITCH` has not gone to it yet, and will go to `ThreadRoot`. -/
  fresh : Bool
  /-- It has called `machine->Run`. -/
  running : Bool
  /-- It has the five tables of a program; otherwise the pointers to them are `NULL`. -/
  tables : Bool

/-- The machine, and the threads that use it. -/
structure System where
  registers : Registers
  pageTable : Nat
  pageTableSize : BitVec 32
  currentThread : Nat
  threadToBeDestroyed : Option Nat
  threads : Nat → Option UserThread

/-- What can happen next. -/
inductive Action where
  /-- The user program of the running thread, and the system calls that it makes, go on. -/
  | user (registers : Registers)
  /--
  `new Thread`, for `NachOS_Fork` with an address space, and `Fork`.

  `NachOS_Fork` and `NachOS_Exec` also share the tables of the running thread with it.
  -/
  | fork (thread : Nat) (garbage : Registers) (space : Option Space) (shares : Bool)
  /--
  `StartProcess` and `execProcess` make an address space for the running thread.

  `StartProcess` makes its tables as well.
  -/
  | load (space : Space) (makes : Bool)
  /-- The end of these, or `NachOSForkThread` with the address of a function. -/
  | start (func : Option (BitVec 32))
  /-- `Scheduler::Run`. -/
  | run (nextThread : Nat)
  /-- `Thread::Finish`. -/
  | finish

/-- `AddrSpace::InitRegisters`. -/
def initRegisters (space : Space) : Registers :=
  let registers := writeRegister (fun _ => 0) pcReg 0
  -- The MIPS is told where the next instruction is, because of branch delays.
  let registers := writeRegister registers nextPCReg 4
  writeRegister registers stackReg (space.numPages * BitVec.ofNat 32 pageSize - 16)

/-- What a thread does before it calls `machine->Run` for the first time. -/
def startRegisters (space : Space) : Option (BitVec 32) → Registers
  | none => initRegisters space
  | some func =>
    -- A function that returns gets to the call of `Exit`.
    let registers := writeRegister (initRegisters space) retAddrReg 4
    let registers := writeRegister registers pcReg func
    writeRegister registers nextPCReg (func + 4)

namespace System

/-- Change a thread that is there. -/
def modify (system : System) (thread : Nat) (change : UserThread → UserThread) : System :=
  { system with
    threads := Function.update system.threads thread ((system.threads thread).map change) }

/-- `AddrSpace::RestoreState`. -/
def restoreState (system : System) (space : Space) : System :=
  { system with
    pageTable := space.pageTable
    pageTableSize := space.numPages }

/-- `Scheduler::Run` up to `SWITCH`. -/
def save (system : System) (current : UserThread) : System :=
  if current.space.isSome then
    system.modify system.currentThread fun thread =>
      { thread with userRegisters := system.registers }
  else system

/-- The end of `Scheduler::Run`: the destructor of a thread that has finished has an `ASSERT`. -/
def destroy (system : System) : Except Fault System :=
  match system.threadToBeDestroyed with
  | none => .ok system
  | some thread =>
    if thread = system.currentThread then .error .assertion
    else .ok { system with
      threads := Function.update system.threads thread none
      threadToBeDestroyed := none }

/-- The last part of `Scheduler::Run`. -/
def restore (system : System) (current : UserThread) : System :=
  match current.space with
  | none => system
  | some space => { system with registers := current.userRegisters }.restoreState space

/-- A thread with registers that have not been set. -/
def fork (system : System) (thread : Nat) (garbage : Registers) (space : Option Space)
    (shares : Bool) : System :=
  { system with
    threads := Function.update system.threads thread (some ⟨garbage, space, true, false, shares⟩) }

/-- `currentThread->space = new AddrSpace(executable)`, and the tables. -/
def load (system : System) (space : Space) (makes : Bool) : System :=
  system.modify system.currentThread fun thread =>
    { thread with space := some space, tables := thread.tables || makes }

/-- `machine->Run`, and what is done to the registers before. -/
def start (system : System) (space : Space) (func : Option (BitVec 32)) : System :=
  { system with registers := startRegisters space func }.restoreState space
    |>.modify system.currentThread fun thread => { thread with running := true }

/-- `ThreadRoot`. -/
def begin (system : System) : System :=
  system.modify system.currentThread fun thread => { thread with fresh := false }

/-- The running thread has its tables. -/
def equipped (system : System) : Bool :=
  (system.threads system.currentThread).any UserThread.tables

/--
`Thread::Finish` up to `Sleep`, with the `space` that `removeResources` deletes.

What becomes of the contents of the tables, and of those who joined, concerns no other program.
-/
def finish (system : System) : System :=
  { system.modify system.currentThread fun thread =>
      { thread with space := none, running := false } with
    threadToBeDestroyed := some system.currentThread }

/-- One step. -/
def step (system : System) : Action → Except Fault System
  | .user registers => .ok { system with registers }
  | .fork thread garbage space shares =>
    -- `ShareResources` goes to the tables of the running thread.
    if shares = true ∧ system.equipped = false then .error (.wildAccess 0)
    else .ok (system.fork thread garbage space shares)
  | .load space makes => .ok (system.load space makes)
  | .start func =>
    match (system.threads system.currentThread).bind UserThread.space with
    | none => .error (.wildAccess 0)
    | some space => .ok (system.start space func)
  | .run nextThread =>
    match system.threads system.currentThread, system.threads nextThread with
    | some current, some next => do
      let system := { system.save current with currentThread := nextThread }
      -- A new thread begins in `ThreadRoot`, the others return from `SWITCH`.
      if next.fresh then .ok system.begin
      else
        let system ← system.destroy
        .ok (system.restore next)
    | _, _ => .error .disabled
  | .finish =>
    -- So does `removeResources`.
    if system.equipped then .ok system.finish else .error (.wildAccess 0)

/-- The running thread has not finished yet. -/
def Alive (system : System) : Prop := system.threadToBeDestroyed ≠ some system.currentThread

/-- Has the running thread called `machine->Run`? -/
def running (system : System) : Bool := (system.threads system.currentThread).any UserThread.running

/-- What threads do at each point. -/
def Proper (system : System) : Action → Prop
  | .user _ => system.running = true
  | .fork thread _ _ shares =>
    (system.threads thread).isNone = true ∧ (shares = true → system.equipped = true)
  | .load _ _ => system.running = false
  | .start _ => system.Alive ∧ system.running = false ∧
      ((system.threads system.currentThread).bind UserThread.space).isSome = true
  -- The ready list has no thread that is running or has finished.
  | .run nextThread => nextThread ≠ system.currentThread ∧
      (system.threads nextThread).isSome = true ∧ system.threadToBeDestroyed ≠ some nextThread
  | .finish => system.Alive ∧ system.equipped = true

instance Alive.decide (system : System) : Decidable system.Alive :=
  inferInstanceAs (Decidable (_ ≠ _))

instance Proper.decide (system : System) : ∀ action, Decidable (system.Proper action)
  | .user _ | .load _ _ => inferInstanceAs (Decidable (_ = _))
  | .fork _ _ _ _ => inferInstanceAs (Decidable (_ = _ ∧ (_ → _ = _)))
  | .start _ => inferInstanceAs (Decidable (_ ∧ _ = _ ∧ _ = _))
  | .run _ => inferInstanceAs (Decidable (_ ≠ _ ∧ _ = _ ∧ _ ≠ _))
  | .finish => inferInstanceAs (Decidable (_ ∧ _ = _))

end System

/-- What a user program sees of the machine. -/
structure Context where
  registers : Registers
  pageTable : Nat
  pageTableSize : BitVec 32

/-- An address space, and the function to begin with. -/
structure Task where
  space : Space
  func : Option (BitVec 32)

/-- A user program begins with its own registers and page table. -/
def Context.Starts (task : Task) (context : Context) : Prop :=
  context = ⟨startRegisters task.space task.func, task.space.pageTable, task.space.numPages⟩

/-- What is kept of a user program that does not run. -/
def UserThread.context (thread : UserThread) : Option Context :=
  if thread.running then
    thread.space.map fun space => ⟨thread.userRegisters, space.pageTable, space.numPages⟩
  else none

/-- What is kept of all user programs. -/
def saved (threads : Nat → Option UserThread) : Processors.Contexts Nat Context :=
  fun thread => (threads thread).bind UserThread.context

namespace System

/-- The part of the machine that the running program has to itself. -/
def machine (system : System) : Context :=
  ⟨system.registers, system.pageTable, system.pageTableSize⟩

/-- The context of each user program. -/
def contexts (system : System) : Processors.Contexts Nat Context :=
  if system.running then
    Function.update (saved system.threads) system.currentThread (some system.machine)
  else saved system.threads

/-- What the user programs see of a step. -/
def observe (system : System) (action : Action) (after : System) :
    List (Processors.Event Nat Context Task) :=
  match action with
  | .user _ => [.went system.currentThread system.machine after.machine]
  | .fork _ _ _ _ | .load _ _ => []
  | .start func => match (system.threads system.currentThread).bind UserThread.space with
    | none => []
    | some space => [.began system.currentThread ⟨space, func⟩ after.machine]
  | .run _ => if system.running then [.yielded system.currentThread system.machine] else []
  | .finish => if system.running then [.ended system.currentThread] else []

end System

end Nachos.UserContexts
