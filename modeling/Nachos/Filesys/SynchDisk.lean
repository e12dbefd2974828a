import Nachos.Filesys.OpenFile
import Nachos.Threads.Serial

/-! `SynchDisk`: threads that read and write sectors, and sleep until the disk has done so. -/

namespace Nachos.Filesys

open Threads (Routines Client Outcome Act Stage)

/-- `Disk`; where its head is says only when an interrupt comes, which may be at any time here. -/
structure Device where
  active : Bool
  /-- The file behind the disk. -/
  disk : Disk
  numDiskReads : Nat
  numDiskWrites : Nat
  /-- The requests whose `DiskDone` is scheduled. -/
  scheduled : List Nat

/-- The requests so far, which number the next one. -/
def Device.requests (device : Device) : Nat := device.numDiskReads + device.numDiskWrites

/-- What a thread wants of the disk. -/
inductive Operation where
  | readSector (sector : Int)
  | writeSector (sector : Int) (bytes : List Byte)
  deriving DecidableEq, Repr

/-- `Disk::ReadRequest`. -/
def Device.readRequest (device : Device) (sector : Int) : Except Fault (Device × List Byte) :=
  -- `ASSERT(!active)`: only one request at a time.
  if device.active then .error .assertion
  else do
    let bytes ← readSector device.disk sector
    return ({ device with
      active := true
      numDiskReads := device.numDiskReads + 1
      -- The interrupt is scheduled under the number of the request.
      scheduled := device.scheduled ++ [device.requests] }, bytes)

/-- `Disk::WriteRequest`. -/
def Device.writeRequest (device : Device) (sector : Int) (bytes : List Byte) :
    Except Fault (Device × List Byte) :=
  if device.active then .error .assertion
  else do
    let disk ← writeSector device.disk sector bytes
    return ({ device with
      -- The contents of the disk change at once, only the interrupt comes later.
      active := true
      disk := disk
      numDiskWrites := device.numDiskWrites + 1
      scheduled := device.scheduled ++ [device.requests] }, bytes)

/-- The request for an operation, with what is in the buffer of the thread behind it. -/
def Device.request (device : Device) : Operation → Except Fault (Device × List Byte)
  | .readSector sector => device.readRequest sector
  | .writeSector sector bytes => device.writeRequest sector bytes

namespace SynchDisk

/-- Where a thread goes on in `ReadSector` or `WriteSector`, once it is outside the primitives. -/
inductive Phase where
  /-- In neither of them. -/
  | idle
  /-- It has the lock, and makes its request. -/
  | request (operation : Operation)
  /-- It has made its request, and waits for the interrupt. -/
  | wait (id : Nat) (bytes : List Byte)
  /-- It has been told that the request is done, and releases the lock to return. -/
  | finish (id : Nat) (bytes : List Byte)
  deriving DecidableEq, Repr

/-- Is the thread outside of the routines? -/
def Phase.isIdle : Phase → Bool
  | .idle => true
  | _ => false

/-- `SynchDisk::ReadSector` and `WriteSector` begin with `lock->Acquire()`. -/
def enter (lock : Nat) (_ : Thread) (operation : Operation) (device : Device) :
    Except Fault (Outcome Device Phase) :=
  -- Other threads that want the disk wait here.
  .ok ⟨device, some (.acquire lock), .request operation⟩

/-- The statements behind it, which are the same for both. -/
def go (lock semaphore : Nat) (_ : Thread) (phase : Phase) (_ : Unit) (device : Device) :
    Except Fault (Outcome Device Phase) :=
  match phase with
  | .idle => .error .disabled
  | .request operation => do
    -- The driver does not know that the disk is busy, and the disk asserts that it is not.
    let (after, bytes) ← device.request operation
    return ⟨after, none, .wait device.requests bytes⟩
  | .wait id bytes => .ok ⟨device, some (.p semaphore), .finish id bytes⟩
  | .finish _ _ => .ok ⟨device, some (.release lock), .idle⟩

/-- `Disk::HandleInterrupt`, which calls `SynchDisk::RequestDone`. -/
def handleInterrupt (semaphore : Nat) (id : Nat) (device : Device) :
    Except Fault (Device × Option Nat) :=
  -- An interrupt comes only for a request that has been made.
  if id ∈ device.scheduled then
    .ok ({ device with active := false, scheduled := device.scheduled.erase id }, some semaphore)
  else .error .disabled

/-- The synchronous disk, with a lock and a semaphore of its own. -/
def synchDisk (lock semaphore : Nat) : Routines Device Phase Operation Unit Nat where
  owns object := object = .lock lock || object = .semaphore (.named semaphore)
  idle := Phase.isIdle
  enter := enter lock
  go := go lock semaphore
  device := handleInterrupt semaphore

/-- What the users of the disk and the disk itself do. -/
inductive Event where
  | requested (thread : Thread) (id : Nat) (operation : Operation)
  | completed (id : Nat)
  | returned (thread : Thread) (id : Nat) (bytes : List Byte)
  deriving DecidableEq, Repr

/-- What can be seen of a step. -/
def observe (before : Client Device Phase) (act : Act Operation Unit Nat) (_ : Client Device Phase) :
    List Event :=
  match act with
  | .go _ =>
    match before.kernel.currentThread with
    | none => []
    | some thread =>
      match before.phase thread with
      | .request operation => [.requested thread before.data.requests operation]
      | .finish id bytes => [.returned thread id bytes]
      | .idle | .wait _ _ => []
  | .device id => [.completed id]
  | .enter _ | .other _ => []

/-- The constructor has run, and nobody has used the disk yet. -/
structure Init (lock semaphore : Nat) (main : Thread) (client : Client Device Phase) : Prop where
  made : (synchDisk lock semaphore).Made
    [(.semaphore (.named semaphore), 0), (.lock lock, 0)] main client.kernel
  idle : ∀ thread, client.phase thread = .idle
  active : client.data.active = false
  scheduled : client.data.scheduled = []

end SynchDisk

end Nachos.Filesys
