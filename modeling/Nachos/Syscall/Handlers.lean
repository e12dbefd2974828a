import Nachos.Syscall.ControlTable
import Nachos.Threads.Gates

/-! The system calls that user programs make, on the tables that all their threads share. -/

namespace Nachos.Syscall

open Threads (Kernel Object Call)

/-- The kinds of synchronisation objects that user programs have, each with its own table. -/
inductive Kind where
  | sem
  | lock
  | cond
  deriving DecidableEq, Repr

/-- The object that a pointer in a table of this kind points to. -/
def Kind.object : Kind → Nat → Object
  | .sem, id => .semaphore (.named id)
  | .lock, id => .lock id
  | .cond, id => .condition id

/-- A system call with the arguments that its registers hold. -/
inductive Request where
  | exit
  | exec (name : Int)
  | join (id : Int)
  | create (buffer : Int)
  | open_ (buffer : Int)
  | write (buffer size fd : Int)
  | read (buffer size fd : Int)
  | close (fd : Int)
  | fork
  | semCreate (initial : Int)
  | semDestroy (id : Int)
  | semSignal (id : Int)
  | semWait (id : Int)
  | lockCreate
  | lockDestroy (id : Int)
  | lockAcquire (id : Int)
  | lockRelease (id : Int)
  | condCreate
  | condDestroy (id : Int)
  | condSignal (cond lock : Int)
  | condWait (cond lock : Int)
  | condBroadcast (cond lock : Int)
  | socket (family type : Int)
  | connect (fd host : Int)
  | bind (fd : Int)
  | listen (fd : Int)
  | accept (fd : Int)
  | shutdown (fd : Int)
  deriving DecidableEq, Repr

/-- What the rest of the world contributes to a system call. -/
structure Env where
  /-- A byte of the caller's memory, or what becomes of the machine if it cannot be read. -/
  load : Int → Except Fault Byte
  /-- The same for a byte that is written. -/
  store : Int → Except Fault Unit
  /-- What the host answers to the one call that the handler makes, -1 for an error. -/
  answer : Int
  /-- What `inet_pton` answers to `Connect`. -/
  parsed : Int
  /-- Does the executable of `Exec` open? -/
  executable : Bool
  /-- The address of a thread that is created. -/
  thread : Thread
  /-- The address of a synchronisation object that is created. -/
  object : Nat

/-- The kernel, the five tables, and the descriptors that are open on the host. -/
structure Os where
  kernel : Kernel
  fileTable : ControlTable Int
  threadTable : ControlTable (Option Thread)
  semTable : ControlTable (Option Nat)
  lockTable : ControlTable (Option Nat)
  condTable : ControlTable (Option Nat)
  /-- Register 2 of every thread. -/
  result : Thread → Int
  /-- The `Read` or `Write` that a thread goes on with behind `canAccessConsole->Lock()`. -/
  pending : Thread → Option Request
  /-- The host descriptors that were obtained, and not yet closed. -/
  descriptors : Finset Int

/-- `BUFFER_SIZE`. -/
def bufferSize : Nat := 1000

/-- `ReadMem` and `ReadMemSTR`, which stop behind the first zero byte. -/
def readMem (load : Int → Except Fault Byte) (addr : Int) : Nat → Except Fault Unit
  | 0 => .ok ()
  | bytes + 1 => do
    let value ← load addr
    if value = 0 then return () else readMem load (addr + 1) bytes

/-- `WriteMem`. -/
def writeMem (store : Int → Except Fault Unit) (addr : Int) : Nat → Except Fault Unit
  | 0 => .ok ()
  | bytes + 1 => do
    store addr
    writeMem store (addr + 1) bytes

namespace Os

/-- `RETURN`. -/
def ret (os : Os) (thread : Thread) (status : Int) : Os :=
  { os with result := Function.update os.result thread status }

/-- The table of a kind of synchronisation objects. -/
def table (os : Os) : Kind → ControlTable (Option Nat)
  | .sem => os.semTable
  | .lock => os.lockTable
  | .cond => os.condTable

/-- Replace the table of a kind. -/
def setTable (os : Os) (kind : Kind) (table : ControlTable (Option Nat)) : Os :=
  match kind with
  | .sem => { os with semTable := table }
  | .lock => { os with lockTable := table }
  | .cond => { os with condTable := table }

/-- The kernel takes a step while a system call is handled. -/
def kernelStep (os : Os) (action : Threads.Action) : Except Fault Os := do
  let kernel ← Threads.step os.kernel action
  return { os with kernel := kernel }

/-- Follow a pointer that was found in a table. -/
def deref {α : Type} (id : Int) : Option (Option α) → Except Fault α
  | some (some object) => .ok object
  | _ => .error (.wildAccess id)

/-- `ShareResources`. -/
def shareResources (os : Os) : Os :=
  { os with
    fileTable := os.fileTable.addThread
    threadTable := os.threadTable.addThread
    semTable := os.semTable.addThread
    lockTable := os.lockTable.addThread
    condTable := os.condTable.addThread }

/-- `removeResources`, as far as the tables are concerned. -/
def removeResources (os : Os) (thread : Thread) : Except Fault Os := do
  let (_, table) ← os.threadTable.close (os.threadTable.getID (some thread))
  return { os with
    threadTable := table.delThread
    fileTable := os.fileTable.delThread
    semTable := os.semTable.delThread
    lockTable := os.lockTable.delThread
    condTable := os.condTable.delThread }

/-- The handlers that create an object and register it. -/
def createObject (os : Os) (env : Env) (thread : Thread) (kind : Kind) (initial : Int) :
    Except Fault Os := do
  let os ← os.kernelStep (.create (kind.object env.object) initial)
  let (id, table) := (os.table kind).open_ (some env.object)
  return (os.setTable kind table).ret thread id

/-- The handlers that delete an object and its entry. -/
def destroyObject (os : Os) (thread : Thread) (kind : Kind) (id : Int) : Except Fault Os := do
  if ← (os.table kind).isOpened id then
    let object ← deref id (← (os.table kind).getObject id)
    let os ← os.kernelStep (.delete (kind.object object))
    let (_, table) ← (os.table kind).close id
    return (os.setTable kind table).ret thread 0
  else return os.ret thread (-1)

/-- The handlers that call a primitive of one object. -/
def useObject (os : Os) (thread : Thread) (kind : Kind) (id : Int) (call : Nat → Call) :
    Except Fault Os := do
  if ← (os.table kind).isOpened id then
    let object ← deref id (← (os.table kind).getObject id)
    let os ← os.kernelStep (.call (call object))
    return os.ret thread 0
  else return os.ret thread (-1)

/-- The handlers that call a primitive of a condition and a lock. -/
def useCondition (os : Os) (thread : Thread) (cond lock : Int) (call : Nat → Nat → Call) :
    Except Fault Os := do
  if ← os.condTable.isOpened cond then
    if ← os.lockTable.isOpened lock then
      let held ← deref lock (← os.lockTable.getObject lock)
      let condition ← deref cond (← os.condTable.getObject cond)
      let os ← os.kernelStep (.call (call condition held))
      return os.ret thread 0
    else return os.ret thread (-1)
  else return os.ret thread (-1)

/-- The handlers that pass a host descriptor on to the host. -/
def useDescriptor (os : Os) (thread : Thread) (fd : Int)
    (proceed : Int → Except Fault Os) : Except Fault Os := do
  if ← os.fileTable.isOpened fd then
    match ← os.fileTable.getObject fd with
    | some descriptor => proceed descriptor
    | none => .error (.wildAccess fd)
  else return os.ret thread (-1)

/-- A descriptor that the host gave out is registered. -/
def register (os : Os) (thread : Thread) (descriptor : Int) : Os :=
  let (id, table) := os.fileTable.open_ descriptor
  { os with
    fileTable := table
    descriptors := insert descriptor os.descriptors }.ret thread id

/-- `NachOS_Exit` behind its `Yield`. -/
def nachOSExit (os : Os) (thread : Thread) : Except Fault Os := do
  let os ← os.removeResources thread
  os.kernelStep .finish

/-- `NachOS_Exec`. -/
def nachOSExec (os : Os) (env : Env) (thread : Thread) (name : Int) : Except Fault Os := do
  readMem env.load name bufferSize
  if env.executable then
    let (id, table) := os.threadTable.open_ (some env.thread)
    let os ← ({ os with threadTable := table }.shareResources).kernelStep (.fork env.thread)
    return os.ret thread id
  else return os.ret thread (-1)

/-- `NachOS_Join`, which answers -1 in any case. -/
def nachOSJoin (os : Os) (thread : Thread) (id : Int) : Except Fault Os := do
  if ← os.threadTable.isOpened id then
    let joined ← deref id (← os.threadTable.getObject id)
    let os ← os.kernelStep (.join joined)
    return os.ret thread (-1)
  else return os.ret thread (-1)

/-- `NachOS_Create`, which answers the host's descriptor and does not keep it. -/
def nachOSCreate (os : Os) (env : Env) (thread : Thread) (buffer : Int) : Except Fault Os := do
  readMem env.load buffer bufferSize
  return { os with
    descriptors := if env.answer = -1 then os.descriptors else insert env.answer os.descriptors
    }.ret thread env.answer

/-- `NachOS_Open`. -/
def nachOSOpen (os : Os) (env : Env) (thread : Thread) (buffer : Int) : Except Fault Os := do
  readMem env.load buffer bufferSize
  return if env.answer = -1 then os.ret thread (-1) else os.register thread env.answer

/-- `ConsoleInput`. -/
def consoleInput : Int := 0

/-- `ConsoleOutput`. -/
def consoleOutput : Int := 1

/-- `ConsoleError`. -/
def consoleError : Int := 2

/-- What `NachOS_Write` does with the host's descriptor; the length of an array is not negative. -/
def writeTo (os : Os) (env : Env) (thread : Thread) (buffer size descriptor : Int) :
    Except Fault Os :=
  if size < 0 then .error (.wildAccess size)
  else do
    readMem env.load buffer size.toNat
    return os.ret thread
      (if descriptor = consoleOutput ∨ descriptor = consoleError then 0 else env.answer)

/-- `NachOS_Write` between `canAccessConsole->Lock()` and `Unlock()`. -/
def nachOSWrite (os : Os) (env : Env) (thread : Thread) (buffer size fd : Int) :
    Except Fault Os :=
  if fd = consoleInput then .ok (os.ret thread (-1))
  else os.useDescriptor thread fd (os.writeTo env thread buffer size)

/-- What `NachOS_Read` does with the host's descriptor. -/
def readFrom (os : Os) (env : Env) (thread : Thread) (buffer size : Int) : Except Fault Os :=
  if size < 0 then .error (.wildAccess size)
  else if env.answer = -1 then .ok (os.ret thread (-1))
  else do
    writeMem env.store buffer env.answer.toNat
    return os.ret thread env.answer

/-- `NachOS_Read` between `canAccessConsole->Lock()` and `Unlock()`. -/
def nachOSRead (os : Os) (env : Env) (thread : Thread) (buffer size fd : Int) :
    Except Fault Os :=
  if fd = consoleOutput ∨ fd = consoleError then .ok (os.ret thread (-1))
  else os.useDescriptor thread fd fun _ => os.readFrom env thread buffer size

/-- `NachOS_Close`, which answers the host's descriptor. -/
def nachOSClose (os : Os) (thread : Thread) (fd : Int) : Except Fault Os :=
  os.useDescriptor thread fd fun descriptor => do
    let (_, table) ← os.fileTable.close fd
    return { os with
      fileTable := table
      descriptors := os.descriptors.erase descriptor }.ret thread descriptor

/-- `NachOS_Fork`, which leaves register 2 alone. -/
def nachOSFork (os : Os) (env : Env) : Except Fault Os :=
  let (_, table) := os.threadTable.open_ (some env.thread)
  ({ os with threadTable := table }.shareResources).kernelStep (.fork env.thread)

/-- `NachOS_Socket`. -/
def nachOSSocket (os : Os) (env : Env) (thread : Thread) (family type : Int) : Os :=
  -- `AF_INET_NachOS` and `AF_INET6_NachOS`, `SOCK_STREAM_NachOS` and `SOCK_DGRAM_NachOS`.
  if (family = 0 ∨ family = 1) ∧ (type = 0 ∨ type = 1) ∧ env.answer ≠ -1 then
    os.register thread env.answer
  else os.ret thread (-1)

/-- `NachOS_Connect`, whose status is that of `ReadMemSTR` if the descriptor is not open. -/
def nachOSConnect (os : Os) (env : Env) (thread : Thread) (fd host : Int) : Except Fault Os := do
  readMem env.load host bufferSize
  if ← os.fileTable.isOpened fd then
    return os.ret thread (if env.parsed = -1 then -1 else env.answer)
  else return os.ret thread 0

/-- `NachOS_Bind`. -/
def nachOSBind (os : Os) (env : Env) (thread : Thread) (fd : Int) : Except Fault Os :=
  os.useDescriptor thread fd fun _ => return os.ret thread env.answer

/-- `NachOS_Listen`. -/
def nachOSListen (os : Os) (env : Env) (thread : Thread) (fd : Int) : Except Fault Os :=
  os.useDescriptor thread fd fun _ => return os.ret thread env.answer

/-- `NachOS_Accept`. -/
def nachOSAccept (os : Os) (env : Env) (thread : Thread) (fd : Int) : Except Fault Os :=
  os.useDescriptor thread fd fun _ =>
    return if env.answer = -1 then os.ret thread (-1) else os.register thread env.answer

/-- `NachOS_Shutdown`, which closes the slot whose number is that of the host's descriptor. -/
def nachOSShutdown (os : Os) (env : Env) (thread : Thread) (fd : Int) : Except Fault Os :=
  os.useDescriptor thread fd fun descriptor => do
    let (_, table) ← os.fileTable.close descriptor
    return { os with fileTable := table }.ret thread (if descriptor = -1 then -1 else env.answer)

/-- Handle a system call, `Read` and `Write` between the calls that they make for the console. -/
def handle (os : Os) (env : Env) (thread : Thread) : Request → Except Fault Os
  | .exit => os.nachOSExit thread
  | .exec name => os.nachOSExec env thread name
  | .join id => os.nachOSJoin thread id
  | .create buffer => os.nachOSCreate env thread buffer
  | .open_ buffer => os.nachOSOpen env thread buffer
  | .write buffer size fd => os.nachOSWrite env thread buffer size fd
  | .read buffer size fd => os.nachOSRead env thread buffer size fd
  | .close fd => os.nachOSClose thread fd
  | .fork => os.nachOSFork env
  | .semCreate initial => os.createObject env thread .sem initial
  | .semDestroy id => os.destroyObject thread .sem id
  | .semSignal id => os.useObject thread .sem id .v
  | .semWait id => os.useObject thread .sem id .p
  | .lockCreate => os.createObject env thread .lock 0
  | .lockDestroy id => os.destroyObject thread .lock id
  | .lockAcquire id => os.useObject thread .lock id .acquire
  | .lockRelease id => os.useObject thread .lock id .release
  | .condCreate => os.createObject env thread .cond 0
  | .condDestroy id => os.destroyObject thread .cond id
  | .condSignal cond lock => os.useCondition thread cond lock .signal
  | .condWait cond lock => os.useCondition thread cond lock .wait
  | .condBroadcast cond lock => os.useCondition thread cond lock .broadcast
  | .socket family type => .ok (os.nachOSSocket env thread family type)
  | .connect fd host => os.nachOSConnect env thread fd host
  | .bind fd => os.nachOSBind env thread fd
  | .listen fd => os.nachOSListen env thread fd
  | .accept fd => os.nachOSAccept env thread fd
  | .shutdown fd => os.nachOSShutdown env thread fd

end Os

/-- `Read` and `Write` are handled while the console is locked. -/
def Request.usesConsole : Request → Bool
  | .read _ _ _ | .write _ _ _ => true
  | _ => false

/-- What can happen next. -/
inductive Action where
  /-- The running thread makes a system call. -/
  | syscall (request : Request) (env : Env)
  /-- The running thread goes on behind `canAccessConsole->Lock()`. -/
  | go (env : Env)
  /-- The running thread goes on in the primitive it slept in. -/
  | resume
  /-- The running thread gives up the CPU, or its time slice is over. -/
  | yield
  /-- The handler of a device interrupt signals a semaphore. -/
  | interrupt (semaphore : Nat)
  /-- The idle CPU finds a ready thread. -/
  | dispatch

/-- One step of the system; `console` is the mutex `canAccessConsole`. -/
def step (console : Nat) (os : Os) : Action → Except Fault Os
  | .syscall request env =>
    match os.kernel.caller with
    | none => .error .disabled
    | some thread =>
      if os.pending thread = none then
        if request.usesConsole then do
          let os ← os.kernelStep (.call (.lockMutex console))
          return { os with pending := Function.update os.pending thread (some request) }
        else os.handle env thread request
      else .error .disabled
  | .go env =>
    match os.kernel.caller with
    | none => .error .disabled
    | some thread =>
      match os.pending thread with
      | none => .error .disabled
      | some request => do
        let os ← os.handle env thread request
        let os ← os.kernelStep (.call (.unlockMutex console))
        return { os with pending := Function.update os.pending thread none }
  | .resume => os.kernelStep .resume
  | .yield => os.kernelStep .yield
  | .interrupt semaphore => os.kernelStep (.interrupt semaphore)
  | .dispatch => os.kernelStep .dispatch

/-- The state when `StartProcess` jumps to the first user program. -/
structure Init (console : Nat) (main : Thread) (os : Os) : Prop where
  /-- The kernel has run for any time, without losing a thread, and has made the console's mutex. -/
  booted : Runs.Reachable Threads.step (Threads.Boot · main)
    (fun kernel action => kernel.abandoned action = none) os.kernel
  console : os.kernel.life (.mutex console) = .live
  files : ∃ garbage words covers, os.fileTable =
    (((((ControlTable.new 25 garbage words covers).open_ 0).2.open_ 1).2).open_ 2).2
  threads : ∃ garbage words covers, os.threadTable =
    ((ControlTable.new 12 garbage words covers).open_ (some main)).2
  tables : ∀ kind, ∃ garbage words covers, os.table kind = .new 12 garbage words covers
  idle : ∀ thread, os.pending thread = none
  descriptors : os.descriptors = {0, 1, 2}

end Nachos.Syscall
