import Nachos.Filesys.SynchDisk
import Nachos.Lib.Rotation
import Nachos.Machine.InterruptLaws

/-! `Disk` with its head: every request is done as soon as its sector has passed under the head. -/

namespace Nachos.Filesys

/-- `RotationTime`: the ticks in which one sector passes. -/
def rotationTime : Int := 500

/-- `SeekTime`: the ticks that the head needs from one track to the next. -/
def seekTime : Int := 500

/-- `SectorsPerTrack`. -/
def sectorsPerTrack : Int := 32

/-- The sector that an operation is about. -/
def Operation.sector : Operation → Int
  | .readSector sector => sector
  | .writeSector sector _ => sector

/-- Does an operation write? -/
def Operation.writing : Operation → Bool
  | .readSector _ => false
  | .writeSector _ _ => true

/-- `Disk` with all of its fields, and the clock of `Statistics`. -/
structure TimedDevice where
  device : Device
  lastSector : Int
  bufferInit : Int
  totalTicks : Int
  /-- The time for which the interrupt of each request is scheduled. -/
  due : Nat → Int

namespace TimedDevice

/-- `Disk::TimeToSeek`: the time to the track, and from there to the next sector boundary. -/
def timeToSeek (disk : TimedDevice) (newSector : Int) : Int × Int :=
  let newTrack := newSector.tdiv sectorsPerTrack
  let oldTrack := disk.lastSector.tdiv sectorsPerTrack
  let seek := asInt ((newTrack - oldTrack).natAbs * seekTime)
  let over_ := (asInt (disk.totalTicks + seek)).tmod rotationTime
  (seek, if 0 < over_ then rotationTime - over_ else 0)

/-- `Disk::ModuloDiff`. -/
def moduloDiff (target current : Int) : Int :=
  let toOffset := target.tmod sectorsPerTrack
  let fromOffset := current.tmod sectorsPerTrack
  ((toOffset - fromOffset) + sectorsPerTrack).tmod sectorsPerTrack

/-- `Disk::ComputeLatency`, with the track buffer. -/
def computeLatency (disk : TimedDevice) (newSector : Int) (writing : Bool) : Int :=
  let (seek, rotation) := disk.timeToSeek newSector
  let timeAfter := asInt (disk.totalTicks + seek + rotation)
  if writing = false ∧ seek = 0 ∧
      moduloDiff newSector (disk.bufferInit.tdiv rotationTime) <
        (asInt (timeAfter - disk.bufferInit)).tdiv rotationTime then
    -- Only the transfer out of the track buffer takes time.
    rotationTime
  else
    let rotation := rotation + moduloDiff newSector (timeAfter.tdiv rotationTime) * rotationTime
    asInt (seek + rotation + rotationTime)

/-- `Disk::UpdateLast`. -/
def updateLast (disk : TimedDevice) (newSector : Int) : TimedDevice :=
  let (seek, rotate) := disk.timeToSeek newSector
  { disk with
    bufferInit := if seek ≠ 0 then asInt (disk.totalTicks + seek + rotate) else disk.bufferInit
    lastSector := newSector }

/-- `Disk::ReadRequest` and `Disk::WriteRequest`, with what is in the buffer of the caller. -/
def request (disk : TimedDevice) (operation : Operation) :
    Except Fault (TimedDevice × List Byte) := do
  let ticks := disk.computeLatency operation.sector operation.writing
  let (device, bytes) ← disk.device.request operation
  let disk' := disk.updateLast operation.sector
  -- `Interrupt::Schedule` asserts that the time is yet to come.
  if 0 < ticks then
    return ({ disk' with
      device := device
      due := Function.update disk.due disk.device.requests (asInt (disk.totalTicks + ticks)) },
      bytes)
  else .error .assertion

/-- What happens to the disk. -/
inductive Action where
  /-- Somebody else lets simulated time go by. -/
  | advance (ticks : Int)
  | request (operation : Operation)
  /-- The interrupt of a request. -/
  | diskDone (id : Nat)

/-- One step. -/
def step (semaphore : Nat) (disk : TimedDevice) : Action → Except Fault TimedDevice
  | .advance ticks => .ok { disk with totalTicks := asInt (disk.totalTicks + ticks) }
  | .request operation => do
    let (disk, _) ← disk.request operation
    return disk
  | .diskDone id => do
    let (device, _) ← SynchDisk.handleInterrupt semaphore id disk.device
    return { disk with device }

/-- The longest time that a request can take, and a tick more. -/
def longest : Int := 32000

/-- Time goes on without an overflow, and no interrupt comes early. -/
def Proper (disk : TimedDevice) : Action → Prop
  | .advance ticks => 0 ≤ ticks ∧ disk.totalTicks + ticks + longest ≤ 2 ^ 31
  | .request _ => True
  | .diskDone id => disk.due id ≤ disk.totalTicks

/-- The constructor has run; time may have gone by before it did. -/
structure Init (disk : TimedDevice) : Prop where
  idle : disk.device.active = false ∧ disk.device.scheduled = []
  head : disk.lastSector = 0 ∧ disk.bufferInit = 0
  clock : 0 ≤ disk.totalTicks ∧ disk.totalTicks + longest ≤ 2 ^ 31

end TimedDevice

/-- A request, when it was made, and when its interrupt is due. -/
structure TimedRequest where
  now : Int
  operation : Operation
  done : Int
  deriving DecidableEq, Repr

/-- What can be seen of a step. -/
def TimedDevice.observe (disk : TimedDevice) (action : Action) (after : TimedDevice) :
    List TimedRequest :=
  match action with
  | .request operation => [⟨disk.totalTicks, operation, after.due disk.device.requests⟩]
  | .advance _ | .diskDone _ => []

/-- A head: the track on which it is, and since when. -/
structure Head where
  track : Int
  since : Int
  deriving DecidableEq, Repr

namespace Head

/-- The time that it needs to the track of a sector. -/
def seek (head : Head) (sector : Int) : Int :=
  (sector / sectorsPerTrack - head.track).natAbs * seekTime

/-- The head moves to the track of a sector, unless it is there. -/
def moved (head : Head) (now sector : Int) : Head :=
  if sector / sectorsPerTrack = head.track then head
  else ⟨sector / sectorsPerTrack, now + head.seek sector⟩

/-- A sector begins to pass under the head. -/
def Passes (head : Head) (sector start : Int) : Prop :=
  sector / sectorsPerTrack = head.track ∧ head.since ≤ start ∧
    Rotation.Passes rotationTime sectorsPerTrack sector start

/-- The head where it is does what a request wants, and does not waste any time. -/
structure Serves (head : Head) (request : TimedRequest) : Prop where
  /-- The whole sector has passed, and it is not written before the request was made. -/
  passes : ∃ start, head.Passes request.operation.sector start ∧
    (request.operation.writing = true → request.now ≤ start) ∧
    start + rotationTime ≤ request.done
  /-- It is done no later than when the sector has passed for the next time. -/
  soonest : ∀ start, head.Passes request.operation.sector start → request.now ≤ start →
    request.done ≤ start + rotationTime
  /-- What has begun to pass already is in the track buffer, or will be. -/
  buffered : request.operation.writing = false →
    ∀ start, head.Passes request.operation.sector start → start < request.now →
      request.done = request.now + rotationTime
  prompt : request.now < request.done ∧ request.done < request.now + TimedDevice.longest

/-- The head after a request. -/
def apply (head : Head) (request : TimedRequest) : Head :=
  head.moved request.now request.operation.sector

/-- The head moves to the track of the sector, and serves the request there. -/
def Allows (head : Head) (request : TimedRequest) : Prop :=
  0 ≤ request.operation.sector ∧ request.operation.sector < numSectors ∧
    (head.apply request).Serves request

end Head

end Nachos.Filesys
