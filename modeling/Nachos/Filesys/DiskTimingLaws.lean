import Nachos.Filesys.DiskTiming
import Nachos.Filesys.SynchDiskLaws

/-! The head is where the disk takes it to be, and each request takes the time that it needs. -/

namespace Nachos.Filesys.TimedDevice

open Rotation (turnAt next)

variable {disk : TimedDevice} {head : Head} {sector : Int}

/-- What the disk remembers of its head, which is the time of the sector boundary only. -/
structure Tracks (disk : TimedDevice) (head : Head) : Prop where
  sector : 0 ≤ disk.lastSector ∧ disk.lastSector < numSectors
  track : disk.lastSector / sectorsPerTrack = head.track
  since : 0 ≤ head.since
  buffer : disk.bufferInit = turnAt rotationTime head.since * rotationTime
  clock : 0 ≤ disk.totalTicks ∧ disk.totalTicks + longest ≤ 2 ^ 31

/-- The head has arrived when nothing is under way, and will have arrived when a request is done. -/
def Arrives (disk : TimedDevice) : Prop :=
  disk.device.active = false ∧ disk.device.scheduled = [] ∧ disk.bufferInit ≤ disk.totalTicks ∨
    ∃ id, disk.device.active = true ∧ disk.device.scheduled = [id] ∧ disk.bufferInit ≤ disk.due id

/-- The turn of a time is known from the first turn. -/
theorem turnAt_eq (time : Int) : turnAt rotationTime time = (time + 499) / 500 := by
  rw [turnAt, rotationTime, Int.add_sub_assoc]
  rfl

/-- Seeks are short. -/
theorem Tracks.seek_bounds (tracks : disk.Tracks head) (inside : 0 ≤ sector ∧ sector < numSectors) :
    0 ≤ head.seek sector ∧ head.seek sector ≤ 15500 := by
  have old := tracks.sector
  have track := tracks.track
  simp only [numSectors, sectorsPerTrack, Head.seek, seekTime] at *
  omega

/-- A seek takes no time when the head is there. -/
theorem seek_eq_zero : head.seek sector = 0 ↔ sector / sectorsPerTrack = head.track := by
  simp only [Head.seek, seekTime]
  omega

/-- `TimeToSeek` returns the time of the seek, and what is left of the turn that passes then. -/
theorem Tracks.timeToSeek_eq (tracks : disk.Tracks head)
    (inside : 0 ≤ sector ∧ sector < numSectors) :
    disk.timeToSeek sector = (head.seek sector,
      turnAt rotationTime (disk.totalTicks + head.seek sector) * rotationTime -
        (disk.totalTicks + head.seek sector)) := by
  obtain ⟨low, high⟩ := tracks.seek_bounds inside
  have clock := tracks.clock
  rw [longest] at clock
  have seek : asInt ((sector.tdiv sectorsPerTrack -
      disk.lastSector.tdiv sectorsPerTrack).natAbs * seekTime) = head.seek sector := by
    rw [Int.tdiv_eq_ediv_of_nonneg inside.1, Int.tdiv_eq_ediv_of_nonneg tracks.sector.1,
      tracks.track]
    change asInt (head.seek sector) = head.seek sector
    exact Interrupt.asInt_of_fits low (by omega)
  have later : 0 ≤ disk.totalTicks + head.seek sector := by omega
  have same := Interrupt.asInt_of_fits later (by omega)
  rw [turnAt_eq, timeToSeek, seek]
  simp only [same, Int.tmod_eq_emod_of_nonneg later, rotationTime, Prod.mk.injEq, true_and]
  split <;> omega

/-- `ModuloDiff` of numbers that are not negative. -/
theorem moduloDiff_eq {target current : Int} (positive : 0 ≤ target) (positive' : 0 ≤ current) :
    moduloDiff target current = (target - current) % sectorsPerTrack := by
  simp only [moduloDiff, sectorsPerTrack, Int.tmod_eq_emod_of_nonneg positive,
    Int.tmod_eq_emod_of_nonneg positive']
  rw [Int.tmod_eq_emod_of_nonneg (by omega)]
  omega

/-- Has a sector begun to pass before some time, while the head was on the track? -/
theorem moduloDiff_lt (since now : Int) (early : 0 ≤ since) (positive : 0 ≤ sector) :
    moduloDiff sector (turnAt rotationTime since) <
        turnAt rotationTime now - turnAt rotationTime since ↔
      next rotationTime sectorsPerTrack sector since < now := by
  have turns : 0 ≤ turnAt rotationTime since := by
    rw [turnAt_eq]
    omega
  have begun := @Rotation.turnAt_le rotationTime now (by decide)
    (turnAt rotationTime since + (sector - turnAt rotationTime since) % sectorsPerTrack)
  rw [moduloDiff_eq positive turns, next]
  omega

/-- `ComputeLatency` is the time until the sector has passed, or that of one transfer. -/
theorem Tracks.computeLatency_eq (tracks : disk.Tracks head)
    (inside : 0 ≤ sector ∧ sector < numSectors) (arrived : disk.bufferInit ≤ disk.totalTicks)
    (writing : Bool) :
    disk.computeLatency sector writing =
      if writing = false ∧ sector / sectorsPerTrack = head.track ∧
          next rotationTime sectorsPerTrack sector head.since < disk.totalTicks then rotationTime
      else next rotationTime sectorsPerTrack sector (disk.totalTicks + head.seek sector) +
        rotationTime - disk.totalTicks := by
  have seeks := tracks.seek_bounds inside
  have clock := tracks.clock
  have since := tracks.since
  rw [longest] at clock
  have start : 0 ≤ turnAt rotationTime head.since := by
    rw [turnAt_eq]
    omega
  have place := turnAt_eq (disk.totalTicks + head.seek sector)
  have buffer := tracks.buffer
  have boundary : asInt (disk.totalTicks + head.seek sector +
      (turnAt rotationTime (disk.totalTicks + head.seek sector) * rotationTime -
        (disk.totalTicks + head.seek sector))) =
      turnAt rotationTime (disk.totalTicks + head.seek sector) * rotationTime := by
    rw [rotationTime] at *
    rw [Interrupt.asInt_of_fits] <;> omega
  have turns : ∀ turn : Int, (turn * rotationTime).tdiv rotationTime = turn :=
    fun turn => Int.mul_tdiv_cancel turn (by decide)
  have elapsed : asInt (turnAt rotationTime (disk.totalTicks + head.seek sector) * rotationTime -
      turnAt rotationTime head.since * rotationTime) =
      (turnAt rotationTime (disk.totalTicks + head.seek sector) -
        turnAt rotationTime head.since) * rotationTime := by
    rw [Int.sub_mul]
    rw [rotationTime] at *
    rw [Interrupt.asInt_of_fits] <;> omega
  rw [computeLatency, tracks.timeToSeek_eq inside]
  simp only [boundary, buffer, turns, elapsed]
  have later : 0 ≤ turnAt rotationTime (disk.totalTicks + head.seek sector) := by omega
  refine if_congr ?_ rfl ?_
  · -- The buffer matters only when the head does not move.
    rw [moduloDiff_lt head.since _ since inside.1, seek_eq_zero]
    refine and_congr_right fun _ => and_congr_right fun same => ?_
    rw [seek_eq_zero.mpr same, Int.add_zero]
  · rw [moduloDiff_eq inside.1 later, next, Int.add_mul]
    have round := Int.emod_lt_of_pos
      (sector - turnAt rotationTime (disk.totalTicks + head.seek sector))
      (show 0 < sectorsPerTrack by decide)
    have round' := Int.emod_nonneg
      (sector - turnAt rotationTime (disk.totalTicks + head.seek sector))
      (show sectorsPerTrack ≠ 0 by decide)
    simp only [rotationTime, sectorsPerTrack] at *
    rw [Interrupt.asInt_of_fits] <;> omega

/-- Where the head is after a seek, and since when. -/
theorem moved_cases (head : Head) (now sector : Int) :
    (head.moved now sector).track = sector / sectorsPerTrack ∧
      (head.moved now sector = head ∧ head.seek sector = 0 ∨
        (head.moved now sector).since = now + head.seek sector ∧ head.seek sector ≠ 0) := by
  by_cases same : sector / sectorsPerTrack = head.track
  · rw [Head.moved, if_pos same]
    exact ⟨same.symm, .inl ⟨rfl, seek_eq_zero.mpr same⟩⟩
  · rw [Head.moved, if_neg same]
    exact ⟨rfl, .inr ⟨rfl, mt seek_eq_zero.mp same⟩⟩

/-- The head comes to a sector for the first time from some time on. -/
theorem passes_next_of_le {time : Int} (track : head.track = sector / sectorsPerTrack)
    (since : head.since ≤ time) :
    head.Passes sector (next rotationTime sectorsPerTrack sector time) :=
  ⟨track.symm, since.trans (Rotation.le_next (by decide) (by decide)), Rotation.passes_next ..⟩

/-- What has begun to pass is transferred from the track buffer. -/
theorem serves_buffered {operation : Operation} {now start : Int}
    (reads : operation.writing = false) (passes : head.Passes operation.sector start)
    (early : start < now) : head.Serves ⟨now, operation, now + rotationTime⟩ where
  passes := by
    refine ⟨start, passes, fun writes => ?_, ?_⟩
    · cases reads.symm.trans writes
    · change start + rotationTime ≤ now + rotationTime
      omega
  soonest _ _ late := by
    change now + rotationTime ≤ _ + rotationTime
    change now ≤ _ at late
    omega
  buffered _ _ _ _ := rfl
  prompt := by
    simp only [rotationTime, longest]
    omega

/-- Otherwise the sector passes for the next time, once the head is there. -/
theorem serves_next {operation : Operation} {now wait : Int}
    (track : head.track = operation.sector / sectorsPerTrack)
    (bounds : 0 ≤ wait ∧ wait ≤ 15500) (since : head.since ≤ now + wait)
    (first : ∀ start, head.Passes operation.sector start → now ≤ start → now + wait ≤ start)
    (unread : operation.writing = false → ∀ start, head.Passes operation.sector start →
      now ≤ start) :
    head.Serves ⟨now, operation,
      next rotationTime sectorsPerTrack operation.sector (now + wait) + rotationTime⟩ := by
  have late := @Rotation.le_next rotationTime sectorsPerTrack operation.sector (now + wait)
    (by decide) (by decide)
  have soon := @Rotation.next_lt rotationTime sectorsPerTrack operation.sector (now + wait)
    (by decide) (by decide)
  refine ⟨⟨_, passes_next_of_le track since, fun _ => ?_, Int.le_refl _⟩, ?_, ?_, ?_⟩
  · exact Int.le_trans (show now ≤ now + wait by omega) late
  · intro start passes behind
    have least := Rotation.next_le (by decide) (by decide) passes.2.2 (first start passes behind)
    exact Int.add_le_add_right least rotationTime
  · intro reads start passes early
    have behind := unread reads start passes
    change start < now at early
    omega
  · simp only [rotationTime, sectorsPerTrack, longest] at *
    omega

/-- A request for which `ComputeLatency` has been asked is served when the head has moved. -/
theorem Tracks.serves (tracks : disk.Tracks head) {operation : Operation}
    (inside : 0 ≤ operation.sector ∧ operation.sector < numSectors)
    (arrived : disk.bufferInit ≤ disk.totalTicks) :
    (head.moved disk.totalTicks operation.sector).Serves ⟨disk.totalTicks, operation,
      disk.totalTicks + disk.computeLatency operation.sector operation.writing⟩ := by
  have seeks := tracks.seek_bounds inside
  have since : head.since ≤ disk.totalTicks := by
    have boundary := (@Rotation.turnAt_le rotationTime head.since (by decide)
      (turnAt rotationTime head.since)).mp (Int.le_refl _)
    rw [← tracks.buffer] at boundary
    omega
  obtain ⟨track, moved⟩ := moved_cases head disk.totalTicks operation.sector
  rw [tracks.computeLatency_eq inside arrived]
  split
  next buffer =>
    -- The head does not move, and finds the sector in the track buffer.
    obtain ⟨reads, same, early⟩ := buffer
    have stays : head.moved disk.totalTicks operation.sector = head := if_pos same
    rw [stays]
    exact serves_buffered reads (passes_next_of_le same.symm (Int.le_refl _)) early
  next unbuffered =>
    have time : disk.totalTicks + (next rotationTime sectorsPerTrack operation.sector
        (disk.totalTicks + head.seek operation.sector) + rotationTime - disk.totalTicks) =
        next rotationTime sectorsPerTrack operation.sector
          (disk.totalTicks + head.seek operation.sector) + rotationTime := by omega
    rw [time]
    refine serves_next track seeks ?_ ?_ ?_
    · rcases moved with ⟨stays, -⟩ | ⟨arrives, -⟩
      · rw [stays]
        omega
      · omega
    · rintro start ⟨-, there, -⟩ behind
      rcases moved with ⟨-, zero⟩ | ⟨arrives, -⟩ <;> omega
    · rintro reads start ⟨same, there, passes⟩
      rcases moved with ⟨stays, -⟩ | ⟨arrives, -⟩
      · -- An earlier pass would be in the buffer.
        rw [stays] at same there
        have least := Rotation.next_le (by decide) (by decide) passes there
        by_contra early
        exact unbuffered ⟨reads, same, by omega⟩
      · omega

/-- A request that is accepted is one for a sector of the disk. -/
theorem inside_of_request {device after : Device} {operation : Operation} {bytes : List Byte}
    (done : device.request operation = .ok (after, bytes)) :
    0 ≤ operation.sector ∧ operation.sector < numSectors := by
  have numbered : ∀ {sector : Int} {number : Nat}, sectorNumber sector = .ok number →
      0 ≤ sector ∧ sector < numSectors := by
    intro sector number found
    rw [sectorNumber] at found
    split at found
    · assumption
    · cases found
  cases operation with
  | readSector sector =>
    simp only [Device.request, Device.readRequest] at done
    split at done
    · cases done
    · obtain ⟨read, found, -⟩ := Runs.bind_eq_ok.mp done
      obtain ⟨number, inside, -⟩ := Runs.bind_eq_ok.mp found
      exact numbered inside
  | writeSector sector written =>
    simp only [Device.request, Device.writeRequest] at done
    split at done
    · cases done
    · obtain ⟨disk, found, -⟩ := Runs.bind_eq_ok.mp done
      obtain ⟨number, inside, -⟩ := Runs.bind_eq_ok.mp found
      exact numbered inside

/-- A request for a sector of the disk is accepted while nothing is under way. -/
theorem Tracks.accepts (tracks : disk.Tracks head) (arrives : disk.Arrives) {operation : Operation}
    (idle : disk.device.active = false)
    (inside : 0 ≤ operation.sector ∧ operation.sector < numSectors) :
    ∃ after bytes, disk.request operation = .ok (after, bytes) := by
  have arrived : disk.bufferInit ≤ disk.totalTicks := by
    rcases arrives with ⟨-, -, arrived⟩ | ⟨id, busy, -⟩
    · exact arrived
    · cases idle.symm.trans busy
  have soon : 0 < disk.computeLatency operation.sector operation.writing := by
    have prompt := (tracks.serves inside arrived).prompt
    simp only at prompt
    omega
  have requested : ∃ device bytes, disk.device.request operation = .ok (device, bytes) := by
    cases operation with
    | readSector sector | writeSector sector written =>
      have number : sectorNumber sector = .ok sector.toNat := if_pos inside
      simp only [Device.request, Device.readRequest, Device.writeRequest, readSector, writeSector,
        number, idle, Runs.ok_bind]
      exact ⟨_, _, rfl⟩
  obtain ⟨device, bytes, requested⟩ := requested
  simp only [request, requested, Runs.ok_bind, if_pos soon]
  exact ⟨_, _, rfl⟩

/-- A request finds the disk as it was, and leaves it with the head on the track of the sector. -/
theorem Tracks.request (tracks : disk.Tracks head) (arrives : disk.Arrives)
    {operation : Operation} {after : TimedDevice} {bytes : List Byte}
    (done : disk.request operation = .ok (after, bytes)) :
    head.Allows ⟨disk.totalTicks, operation, after.due disk.device.requests⟩ ∧
      after.Tracks (head.moved disk.totalTicks operation.sector) ∧ after.Arrives := by
  obtain ⟨⟨device, read⟩, requested, rest⟩ := Runs.bind_eq_ok.mp done
  have inside := inside_of_request requested
  obtain ⟨idle, active, scheduled, -⟩ := SynchDisk.request_eq_ok requested
  have arrived : disk.bufferInit ≤ disk.totalTicks ∧ disk.device.scheduled = [] := by
    rcases arrives with ⟨-, none, arrived⟩ | ⟨id, busy, -⟩
    · exact ⟨arrived, none⟩
    · cases idle.symm.trans busy
  have serves := tracks.serves inside arrived.1
  have clock := tracks.clock
  have soon : 0 < disk.computeLatency operation.sector operation.writing ∧
      disk.computeLatency operation.sector operation.writing < longest := by
    have prompt := serves.prompt
    simp only at prompt
    omega
  have fits : asInt (disk.totalTicks + disk.computeLatency operation.sector operation.writing) =
      disk.totalTicks + disk.computeLatency operation.sector operation.writing :=
    Interrupt.asInt_of_fits (by omega) (by omega)
  simp only [if_pos soon.1, fits] at rest
  obtain ⟨same, -⟩ := Prod.mk.inj (Except.ok.inj rest)
  generalize disk.computeLatency operation.sector operation.writing = ticks at *
  have seeks := tracks.seek_bounds inside
  obtain ⟨track, moved⟩ := moved_cases head disk.totalTicks operation.sector
  -- The disk remembers from which sector boundary on the head is there.
  have buffer : after.bufferInit =
      turnAt rotationTime (head.moved disk.totalTicks operation.sector).since * rotationTime := by
    simp only [← same, updateLast, tracks.timeToSeek_eq inside]
    rcases moved with ⟨stays, zero⟩ | ⟨since, nonzero⟩
    · rw [stays, ← tracks.buffer]
      exact if_neg (not_not.mpr zero)
    · have boundary := turnAt_eq (disk.totalTicks + head.seek operation.sector)
      rw [longest] at clock
      rw [since]
      refine (if_pos nonzero).trans ?_
      rw [rotationTime] at *
      rw [Interrupt.asInt_of_fits] <;> omega
  have due : after.due disk.device.requests = disk.totalTicks + ticks := by
    rw [← same]
    exact Function.update_self ..
  have sector : after.lastSector = operation.sector := by rw [← same]; rfl
  have time : after.totalTicks = disk.totalTicks := by rw [← same]; rfl
  have changed : after.device = device := by rw [← same]
  refine ⟨⟨inside.1, inside.2, ?_⟩,
    ⟨sector ▸ inside, sector ▸ track.symm, ?_, buffer, time ▸ clock⟩, ?_⟩
  · rw [due]
    exact serves
  · rcases moved with ⟨stays, -⟩ | ⟨since, -⟩
    · rw [stays]
      exact tracks.since
    · omega
  · refine .inr ⟨disk.device.requests, changed ▸ active, ?_, ?_⟩
    · rw [changed, scheduled, arrived.2]
      rfl
    · -- The head is there when the sector begins to pass.
      obtain ⟨start, ⟨-, there, turn, rfl, -⟩, -, done⟩ := serves.passes
      have first := (Rotation.turnAt_le (show 0 < rotationTime by decide)).mpr there
      have boundary := Int.mul_le_mul_of_nonneg_right first (show 0 ≤ rotationTime by decide)
      rw [due, buffer]
      simp only [rotationTime] at *
      omega

/-- Every step keeps track of the head. -/
theorem Tracks.stepped (tracks : disk.Tracks head) (arrives : disk.Arrives) {semaphore : Nat}
    {action : Action} {after : TimedDevice} (proper : disk.Proper action)
    (stepped : disk.step semaphore action = .ok after) :
    Runs.Accepts Head.apply Head.Allows head (disk.observe action after) ∧
      after.Tracks ((disk.observe action after).foldl Head.apply head) ∧ after.Arrives := by
  cases action with
  | advance ticks =>
    obtain rfl := Except.ok.inj stepped
    have clock := tracks.clock
    rw [longest] at clock
    obtain ⟨forward, small⟩ := proper
    rw [longest] at small
    have fits : asInt (disk.totalTicks + ticks) = disk.totalTicks + ticks :=
      Interrupt.asInt_of_fits (by omega) (by omega)
    refine ⟨trivial, { tracks with clock := ?_ }, ?_⟩
    · simp only [fits, longest]
      omega
    · rcases arrives with ⟨idle, none, arrived⟩ | busy
      · refine .inl ⟨idle, none, ?_⟩
        simp only [fits]
        omega
      · exact .inr busy
  | request operation =>
    obtain ⟨⟨next, bytes⟩, requested, rest⟩ := Runs.bind_eq_ok.mp stepped
    obtain rfl := Except.ok.inj rest
    obtain ⟨allowed, tracks, arrives⟩ := tracks.request arrives requested
    exact ⟨⟨allowed, trivial⟩, tracks, arrives⟩
  | diskDone id =>
    obtain ⟨⟨device, woken⟩, handled, rest⟩ := Runs.bind_eq_ok.mp stepped
    obtain rfl := Except.ok.inj rest
    rw [SynchDisk.handleInterrupt] at handled
    split at handled
    · obtain ⟨rfl, -⟩ := Prod.mk.inj (Except.ok.inj handled)
      refine ⟨trivial, { tracks with }, ?_⟩
      -- The interrupt is that of the one request, and has not come before the head.
      rcases arrives with ⟨-, none, -⟩ | ⟨other, -, one, arrived⟩
      · rename_i member
        rw [none] at member
        cases member
      · rename_i member
        rw [one, List.mem_singleton] at member
        subst member
        refine .inl ⟨rfl, ?_, Int.le_trans arrived proper⟩
        change disk.device.scheduled.erase id = []
        rw [one, List.erase_cons_head]
    · cases handled

/-- At first the head is at the first track, on which it has always been. -/
theorem Init.tracks (init : disk.Init) : disk.Tracks ⟨0, 0⟩ ∧ disk.Arrives := by
  obtain ⟨sector, buffer⟩ := init.head
  refine ⟨⟨?_, ?_, Int.le_refl _, ?_, init.clock⟩, .inl ⟨init.idle.1, init.idle.2, ?_⟩⟩
  · rw [sector]
    decide
  · rw [sector]
    rfl
  · rw [buffer]
    decide
  · rw [buffer]
    exact init.clock.1

/--
Every request is done when its sector has passed under the head, and not a tick later.

The head moves from track to track as the requests say, and the sectors of a track pass one after
the other. What is written passes after the request was made; what is read may have passed before,
since the head came to the track, and is then in the track buffer. While the disk is idle, a request
for any of its sectors is accepted.
-/
theorem requests_served {semaphore : Nat} {history : List TimedRequest}
    (traced : Runs.Traced (step semaphore) Init Proper observe disk history) :
    Runs.Accepts Head.apply Head.Allows ⟨0, 0⟩ history ∧
      ∀ operation : Operation, disk.device.active = false → 0 ≤ operation.sector →
        operation.sector < numSectors →
          ∃ after bytes, disk.request operation = .ok (after, bytes) := by
  obtain ⟨accepted, tracks, arrives⟩ := traced.refines
    (fun disk head => disk.Tracks head ∧ disk.Arrives)
    (fun _ init => init.tracks) (by
      rintro disk action after head ⟨tracks, arrives⟩ proper stepped
      exact tracks.stepped arrives proper stepped)
  exact ⟨accepted, fun _ idle low high => tracks.accepts arrives idle ⟨low, high⟩⟩

/-- Whether an action is proper can be decided. -/
instance (disk : TimedDevice) : DecidablePred disk.Proper
  | .advance _ => inferInstanceAs (Decidable (_ ∧ _))
  | .request _ => inferInstanceAs (Decidable True)
  | .diskDone _ => inferInstanceAs (Decidable (_ ≤ _))

/-- A disk that has just been constructed. -/
def firstTimedDevice : TimedDevice := ⟨⟨false, fun _ => 0, 0, 0, []⟩, 0, 0, 10, fun _ => 0⟩

/-- Three requests for the same track. -/
def threeRequests : List Action :=
  [.request (.readSector 70), .advance 33000, .diskDone 0, .request (.writeSector 75 []),
    .advance 40000, .diskDone 1, .request (.readSector 74)]

/-- The first two wait for their sectors, and the last one finds its sector in the track buffer. -/
theorem requests_served_threeRequests : ∃ disk,
    Runs.run (step 0) firstTimedDevice threeRequests = .ok disk ∧
      Runs.Accepts Head.apply Head.Allows ⟨0, 0⟩
        [⟨10, .readSector 70, 3500⟩, ⟨33010, .writeSector 75 [], 38000⟩,
          ⟨73010, .readSector 74, 73510⟩] := by
  obtain ⟨disk, ran, -⟩ := Runs.exists_of_runsTo
    (show Runs.runsTo (step 0) firstTimedDevice threeRequests (fun disk => disk.device.active) =
      true by decide +kernel)
  have init : firstTimedDevice.Init := ⟨⟨rfl, rfl⟩, ⟨rfl, rfl⟩, by decide⟩
  have guarded : Runs.Guarded (step 0) Proper firstTimedDevice threeRequests := by decide +kernel
  have served := requests_served (Runs.Traced.extend (.start init) guarded ran)
  have recorded : [] ++ Runs.record (step 0) observe firstTimedDevice threeRequests =
      [⟨10, .readSector 70, 3500⟩, ⟨33010, .writeSector 75 [], 38000⟩,
        ⟨73010, .readSector 74, 73510⟩] := by decide +kernel
  exact ⟨disk, ran, recorded ▸ served.1⟩

end Nachos.Filesys.TimedDevice
