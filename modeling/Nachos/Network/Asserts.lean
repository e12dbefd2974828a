import Nachos.Network.Delivery

/-! Among machines that run, no `ASSERT` behind those of `Send` and `Receive` fails. -/

namespace Nachos.PostOffice

open Threads

variable {numBoxes : Nat} {netAddr : NetworkAddress} {names : Names numBoxes}
  {worker thread : Thread} {client next : Machine numBoxes} {act : Act Entry Chance Signal}
  {phase : Phase numBoxes} {office : PostOffice numBoxes} {box : Fin numBoxes}

/-- A thread is inside of a box from the `Acquire` of its lock to the `Release`. -/
def atBox (box : Fin numBoxes) : Phase numBoxes → Bool
  | .append other _ _ | .signal other _ | .release other _ => other = box
  | .check other | .take other | .give other _ => other = box
  | _ => false

/-- The lock of a box is taken and given back by turns. -/
theorem boxLocking (apart : names.Apart) (box : Fin numBoxes) :
    Locking (postOffice names netAddr worker) (names.lock box) (atBox box) where
  owned := owns_iff.mpr (.inr (.inr (.inr ⟨box, .inl rfl⟩)))
  silent act thread phase data outcome did silent := by
    cases does_of_statement did with
    | postalDelivery | transmit | append | find | take | copy => rfl
    | _ => cases silent
  acquires act thread phase data outcome did calls := by
    cases does_of_statement did with
    -- `sendLock` is the lock of no box, and no two boxes have the same one.
    | send =>
      simp only [Option.some.injEq, Call.acquire.injEq] at calls
      exact absurd calls.symm (apart.locks box)
    | receive | fetch =>
      simp only [Option.some.injEq, Call.acquire.injEq] at calls
      exact ⟨rfl, decide_eq_true (apart.boxes calls)⟩
    | _ => cases calls
  releases act thread phase data outcome did calls := by
    cases does_of_statement did with
    | unlock =>
      simp only [Option.some.injEq, Call.release.injEq] at calls
      exact absurd calls.symm (apart.locks box)
    | release | give =>
      simp only [Option.some.injEq, Call.release.injEq] at calls
      exact ⟨decide_eq_true (apart.boxes calls), rfl⟩
    | _ => cases calls
  waits act thread phase data outcome condition did calls := by
    cases does_of_statement did with
    | sleep =>
      simp only [Option.some.injEq, Call.wait.injEq] at calls
      -- `Wait` gives the lock up, but the thread comes back with it.
      have same := decide_eq_true (apart.boxes calls.2)
      exact ⟨same, same⟩
    | _ => cases calls
  others act thread phase data outcome call did calls spares := by
    cases does_of_statement did with
    | @receive _ _ other | @fetch _ _ _ _ _ _ other =>
      obtain rfl := Option.some.inj calls
      exact decide_eq_false fun same => spares (congrArg names.lock same)
    | @release _ other | @give _ other =>
      obtain rfl := Option.some.inj calls
      exact (decide_eq_false fun same => spares (congrArg names.lock same)).symm
    | send | unlock | wait | listen | signal | sleep => rfl
    | postalDelivery | transmit | append | find | take | copy => cases calls

/-- Its length passes the `ASSERT` of the post office. -/
def short (mail : Mail) : Prop := mail.mailHdr.length.toNat ≤ maxMailSize

/-- What the `ASSERT`s ahead of a thread need. -/
def Phase.sound (netAddr : NetworkAddress) (boxes : Fin numBoxes → List Mail) :
    Phase numBoxes → Prop
  | .transmit parcel => parcel.pktHdr.from_ = netAddr
  | .append _ mail _ => short mail
  | .take box => boxes box ≠ []
  | .give _ mail | .copy _ mail => ∃ found, mail = some found ∧ short found
  | .idle | .wait _ | .unlock _ | .listen _ | .fetch _ | .signal _ _ | .release _ _ | .check _ => True

/-- Boxes that others have not emptied are as good as before. -/
theorem Phase.sound_frame {before after : Fin numBoxes → List Mail}
    (sound : phase.sound netAddr before)
    (stocked : ∀ box, phase = .take box → before box ≠ [] → after box ≠ []) :
    phase.sound netAddr after := by
  cases phase with
  | take box => exact stocked box rfl sound
  | _ => exact sound

/-- What a statement does for the `ASSERT`s. -/
structure Keeps (netAddr : NetworkAddress) (phase : Phase numBoxes) (office : PostOffice numBoxes)
    (outcome : Outcome (PostOffice numBoxes) (Phase numBoxes)) : Prop where
  sendBusy : outcome.data.network.sendBusy = office.network.sendBusy
  socket : outcome.data.network.socket = office.network.socket
  boxes : ∀ box, ∀ mail ∈ outcome.data.boxes box, short mail
  later : outcome.phase.sound netAddr outcome.data.boxes
  /-- Only taking a message can empty a box. -/
  stocked : ∀ box, phase ≠ .take box → office.boxes box ≠ [] → outcome.data.boxes box ≠ []

/-- Every statement keeps what they need. -/
theorem Does.keeps {outcome : Outcome (PostOffice numBoxes) (Phase numBoxes)}
    (does : Does names netAddr worker thread act phase office outcome)
    (before : phase.sound netAddr office.boxes)
    (boxes : ∀ box, ∀ mail ∈ office.boxes box, short mail) :
    Keeps netAddr phase office outcome := by
  cases does with
  | send packed =>
    have mine := congrArg (fun mail => mail.pktHdr.from_) (pack_eq_ok packed)
    exact ⟨rfl, rfl, boxes, mine, fun _ _ stocked => stocked⟩
  | transmit accepted =>
    obtain ⟨-, -, sendBusy, -, -, socket, -⟩ := send_eq_ok accepted
    exact ⟨sendBusy, socket, boxes, trivial, fun _ _ stocked => stocked⟩
  | fetch received found fits =>
    obtain ⟨rfl, -⟩ := Prod.mk.inj received
    exact ⟨rfl, rfl, boxes, fits, fun _ _ stocked => stocked⟩
  -- The lists of the other boxes stay.
  | @append _ box mail buffer =>
    refine ⟨rfl, rfl, fun other item member => ?_, trivial, fun other _ stocked => ?_⟩
    · dsimp only at member
      by_cases same : other = box
      · rw [same, Function.update_self, List.mem_append, List.mem_singleton] at member
        rcases member with old | rfl
        · exact boxes box item old
        · exact before
      · rw [Function.update_of_ne same] at member
        exact boxes other item member
    · dsimp only
      by_cases same : other = box
      · simp [same]
      · rwa [Function.update_of_ne same]
  | @take _ box =>
    refine ⟨rfl, rfl, fun other item member => ?_, ?_, fun other differ stocked => ?_⟩
    · dsimp only at member
      by_cases same : other = box
      · rw [same, Function.update_self] at member
        exact boxes box item (List.mem_of_mem_tail member)
      · rw [Function.update_of_ne same] at member
        exact boxes other item member
    · -- There is a first message, since the list is not empty.
      obtain ⟨mail, rest, list⟩ := List.exists_cons_of_ne_nil before
      exact ⟨mail, by rw [list]; rfl, boxes box mail (by simp [list])⟩
    · have same : other ≠ box := fun same => differ (same ▸ rfl)
      dsimp only
      rwa [Function.update_of_ne same]
  | find stocked => exact ⟨rfl, rfl, boxes, stocked, fun _ _ stocked => stocked⟩
  | give => exact ⟨rfl, rfl, boxes, before, fun _ _ stocked => stocked⟩
  | _ => exact ⟨rfl, rfl, boxes, trivial, fun _ _ stocked => stocked⟩

/-- What the `ASSERT`s of a machine need. -/
structure Checked (names : Names numBoxes) (netAddr : NetworkAddress) (client : Machine numBoxes) :
    Prop where
  sendBusy : client.data.network.sendBusy = false
  socket : ∀ packet ∈ client.data.network.socket,
    (PacketHeader.codec.decode (packet.take PacketHeader.codec.size)).to_ = netAddr
  boxes : ∀ box, ∀ mail ∈ client.data.boxes box, short mail
  phases : ∀ thread, (client.phase thread).sound netAddr client.data.boxes
  exclusive : ∀ box, Exclusive (names.lock box) client.kernel fun thread =>
    atBox box (client.phase thread) = true

/-- A thread that goes on to take a message from a box is the only one inside of it. -/
theorem Checked.alone (checked : Checked names netAddr client)
    (positioned : Positioned (postOffice names netAddr worker) (rests names) client.kernel
      client.phase) (outside : client.kernel.place thread = .outside)
    (takes : client.phase thread = .take box) {other : Thread}
    (also : client.phase other = .take box) : other = thread := by
  have place : client.kernel.place other = .outside :=
    (positioned.busy other (by rw [also]; rfl)).resolve_right (by rw [also]; exact id)
  exact (checked.exclusive box).unique (by simp [takes, atBox]) (by rw [outside]; rfl)
    (by simp [also, atBox]) (by rw [place]; rfl)

/-- A statement keeps what they need, whatever happens to the kernel meanwhile. -/
theorem Checked.execute {kernel : Kernel} {outcome : Outcome (PostOffice numBoxes) (Phase numBoxes)}
    (checked : Checked names netAddr client)
    (positioned : Positioned (postOffice names netAddr worker) (rests names) client.kernel
      client.phase) (outside : client.kernel.place thread = .outside)
    (does : Does names netAddr worker thread act (client.phase thread) client.data outcome)
    (exclusive : ∀ box, Exclusive (names.lock box) kernel fun other =>
      atBox box (Function.update client.phase thread outcome.phase other) = true) :
    Checked names netAddr
      ⟨kernel, outcome.data, Function.update client.phase thread outcome.phase⟩ := by
  have keeps := does.keeps (checked.phases thread) checked.boxes
  refine ⟨keeps.sendBusy.trans checked.sendBusy, ?_, keeps.boxes, ?_, exclusive⟩
  · rw [keeps.socket]
    exact checked.socket
  · refine (Function.forall_update_iff client.phase fun _ phase =>
      phase.sound netAddr outcome.data.boxes).mpr ⟨keeps.later, fun other differ => ?_⟩
    -- Nobody else is about to take a message from that box.
    refine Phase.sound_frame (checked.phases other) fun box takes => keeps.stocked box ?_
    exact fun also => differ (checked.alone positioned outside also takes)

/-- Every step of a machine keeps it. -/
theorem Checked.step (checked : Checked names netAddr client) (apart : names.Apart)
    (positioned : Positioned (postOffice names netAddr worker) (rests names) client.kernel
      client.phase)
    (moves : Moves (postOffice names netAddr worker) (rests names) client act next) :
    Checked names netAddr next := by
  have exclusive (box : Fin numBoxes) := (checked.exclusive box).step (boxLocking apart box) moves
  cases moves with
  | statement current outside did silent =>
    exact checked.execute positioned outside (does_of_statement did) exclusive
  | call current outside did calls performed =>
    exact checked.execute positioned outside (does_of_statement did) exclusive
  | handle settled handled =>
    cases handles_of_interrupt handled with
    | idle => exact ⟨checked.sendBusy, checked.socket, checked.boxes, checked.phases, exclusive⟩
  | raise settled handled =>
    cases handles_of_interrupt handled with
    | poll empty waiting =>
      -- The packets that stay at the socket are some of those that were there.
      refine ⟨checked.sendBusy, fun packet member => checked.socket packet ?_, checked.boxes,
        checked.phases, exclusive⟩
      rw [waiting]
      exact List.mem_cons_of_mem _ member
    | sendDone => exact ⟨rfl, checked.socket, checked.boxes, checked.phases, exclusive⟩
  | resume | other =>
    exact ⟨checked.sendBusy, checked.socket, checked.boxes, checked.phases, exclusive⟩

/-- A new post office is checked. -/
theorem checked_of_init {main : Thread} (init : Init names netAddr worker main client) :
    Checked names netAddr client where
  sendBusy := init.sendBusy
  socket := by simp [init.socket]
  boxes := by simp [init.boxes]
  phases thread := by simp [init.idle, Phase.sound]
  exclusive box := by
    have locking : Locking (postOffice names netAddr worker) (names.lock box) (atBox box) :=
      boxLocking (apart_of_made init.made) box
    refine locking.start (init.made.grounded disciplined.isPublic).2.1 fun thread => ?_
    rw [init.idle]
    rfl

/-- The number of a box that exists is found. -/
theorem boxNumber_of_lt {number : Int} (lower : 0 ≤ number) (upper : number < numBoxes) :
    ∃ box, boxNumber numBoxes number = .ok box :=
  ⟨⟨number.toNat, by omega⟩, by rw [boxNumber, dif_pos lower, dif_pos upper]⟩

variable {fault : Fault} {chance : Chance} {signal : Signal}

/-- Does the running thread send a packet that is not lost to a machine that does not run? -/
def strands (client : Machine numBoxes) (chance : Chance) : Bool :=
  match client.kernel.currentThread.map client.phase with
  | some (.transmit parcel) => !chance.lost && !chance.running.contains parcel.pktHdr.to_
  | _ => false

/-- A step goes wrong only because it cannot be taken, or in `SendToSocket`. -/
def Excused (client : Machine numBoxes) (chance : Chance) (fault : Fault) : Prop :=
  fault = .disabled ∨ fault = .assertion ∧ strands client chance = true

/-- The device takes every parcel of its own machine for one that runs. -/
theorem send_error {network : Network} {parcel : Parcel numBoxes} {data : List Byte}
    (sendBusy : network.sendBusy = false) (mine : parcel.pktHdr.from_ = netAddr)
    (failed : network.send netAddr parcel.pktHdr data chance = .error fault) :
    fault = .disabled ∨
      fault = .assertion ∧ chance.lost = false ∧ parcel.pktHdr.to_ ∉ chance.running := by
  have positive : 0 < parcel.pktHdr.length.toNat :=
    Nat.pos_of_ne_zero fun zero => parcel.length_ne_zero (BitVec.eq_of_toNat_eq zero)
  -- The `ASSERT`s on the header hold for a parcel, and nothing is being sent.
  unfold Network.send at failed
  rw [if_pos ⟨sendBusy, positive, parcel.length_le, mine⟩] at failed
  split at failed
  · cases failed
  · rename_i kept
    dsimp only at failed
    split at failed
    · split at failed
      · cases failed
      · -- `SendToSocket` finds no socket of that name.
        rename_i stopped
        exact .inr ⟨(Except.error.inj failed).symm, Bool.eq_false_iff.mpr kept, stopped⟩
    · exact .inl (Except.error.inj failed).symm

/-- What the postal worker unpacks is a message for a box that exists. -/
theorem unpack_checked {network : Network} (buffer : List Byte)
    (sealed : Sealed numBoxes (PacketHeader.codec.encode network.inHdr ++ network.inbox)) :
    (∃ box : Fin numBoxes, boxNumber numBoxes (Mail.unpack network.inHdr
      (bcopy network.inbox buffer network.inHdr.length.toNat)).mailHdr.to_.toInt = .ok box) ∧
      short (.unpack network.inHdr (bcopy network.inbox buffer network.inHdr.length.toNat)) := by
  rw [unpack_receive sealed]
  obtain ⟨parcel, rest, shape⟩ := sealed
  rw [shape, Mail.opened_packet]
  exact ⟨boxNumber_of_lt parcel.boxed.1 parcel.boxed.2, parcel.fits⟩

/-- No statement behind the first one of a routine fails, but for the one in `SendToSocket`. -/
theorem Checked.go (checked : Checked names netAddr client)
    (inOrder : InOrder names netAddr worker client)
    (genuine : Genuine numBoxes netAddr client.data.network)
    (current : client.kernel.currentThread = some thread)
    (outside : client.kernel.place thread = .outside)
    (failed : (postOffice names netAddr worker).statement (.go chance) thread (client.phase thread)
      client.data = .error fault) : Excused client chance fault := by
  have sound := checked.phases thread
  cases shape : client.phase thread with
  | idle =>
    rw [shape] at failed
    exact .inl (Except.error.inj failed).symm
  -- The thread has `sendLock`, and `sendBusy` is never set.
  | transmit parcel =>
    rw [shape] at failed sound
    rcases Runs.bind_eq_error.mp failed with failed | ⟨network, -, failed⟩
    · -- The header names this machine as the sender.
      rcases send_error checked.sendBusy sound failed with done | ⟨wrong, kept, stopped⟩
      · exact .inl done
      · exact .inr ⟨wrong, by simp [strands, current, shape, kept, stopped]⟩
    · cases failed
  | fetch buffer =>
    -- The worker has been told of a packet, so there is one.
    have waits : awaits (client.phase thread) = true := by rw [shape]; rfl
    have full := inOrder.full waits outside
    rw [shape] at failed
    obtain ⟨⟨box, found⟩, fits⟩ := unpack_checked buffer (genuine.inbox full)
    rcases Runs.bind_eq_error.mp failed with failed | ⟨chosen, -, failed⟩
    · simp only [if_pos full] at failed
      rw [found] at failed
      cases failed
    · simp only [if_pos full] at failed
      rw [if_pos (show _ ≤ maxMailSize from fits)] at failed
      cases failed
  -- `Remove` has found a message, whose length was checked when it came.
  | copy box mail =>
    rw [shape] at failed sound
    obtain ⟨found, rfl, fits⟩ := sound
    change (if found.mailHdr.length.toNat ≤ maxMailSize then _ else _) = _ at failed
    rw [if_pos (show _ ≤ maxMailSize from fits)] at failed
    cases failed
  | check box =>
    rw [shape] at failed
    change (if (client.data.boxes box).isEmpty then _ else _) = _ at failed
    split at failed <;> cases failed
  | _ =>
    rw [shape] at failed
    cases failed

/-- No handler of an interrupt fails. -/
theorem Checked.interrupt (checked : Checked names netAddr client)
    (genuine : Genuine numBoxes netAddr client.data.network)
    (failed : interrupt names netAddr signal client.data = .error fault) : fault = .disabled := by
  cases signal with
  | networkReadPoll =>
    rcases Runs.bind_eq_error.mp failed with failed | ⟨polled, -, failed⟩
    · unfold Network.checkPktAvail at failed
      split at failed
      · cases failed
      · split at failed
        · cases failed
        · -- The packet has been sent to this machine, by a post office.
          rename_i packet rest waiting
          have member : packet ∈ client.data.network.socket := by simp [waiting]
          have mine := checked.socket packet member
          obtain ⟨parcel, others, rfl⟩ := genuine.socket packet member
          simp only [Parcel.decode_packet] at failed mine
          rw [if_pos ⟨mine, parcel.length_le⟩] at failed
          cases failed
    · cases failed
  | networkSendDone =>
    rcases Runs.bind_eq_error.mp failed with failed | ⟨done, -, failed⟩
    · unfold Network.sendDone at failed
      split at failed
      · cases failed
      · exact (Except.error.inj failed).symm
    · cases failed

/-- Threads need objects of the post office only where they sleep. -/
theorem owned_of_rests {kernel : Kernel} {place : Place} (rested : rests names phase place) :
    ∀ object ∈ kernel.needs place, (postOffice names netAddr worker).owns object = true := by
  cases phase with
  | transmit => simp [show place = _ from rested, Kernel.needs, owns_iff]
  | unlock => simp [show place = _ from rested, Kernel.needs, owns_iff]
  | fetch => simp [show place = _ from rested, Kernel.needs, owns_iff]
  | append => simp [show place = _ from rested, Kernel.needs, owns_iff]
  | check box =>
    rcases rested with rfl | rfl
    · simp [Kernel.needs, owns_iff]
    · -- A thread that is woken at the condition may go on to the lock.
      rw [Kernel.needs]
      split <;> simp [owns_iff]
  | _ => exact rested.elim

/-- The routines do not broadcast. -/
theorem Does.silent {outcome : Outcome (PostOffice numBoxes) (Phase numBoxes)}
    (does : Does names netAddr worker thread act phase office outcome) (condition lock : Nat) :
    outcome.call ≠ some (.broadcast condition lock) := by
  cases does <;> simp

variable {names : NetworkAddress → Names numBoxes} {worker main : NetworkAddress → Thread}
  {machines : Machines numBoxes} {history : List (NetworkAddress × Event numBoxes)}

/-- Nothing goes wrong on any machine. -/
structure Sound (names : NetworkAddress → Names numBoxes) (worker : NetworkAddress → Thread)
    (machines : Machines numBoxes) : Prop where
  grounded : ∀ address, Grounded (postOffice (names address) address (worker address)).owns
    (machines address).kernel
  checked : ∀ address, Checked (names address) address (machines address)

/-- Nothing does at first. -/
theorem sound_of_opened (opened : Opened names worker main machines) :
    Sound names worker machines where
  grounded address := ((opened address).made.grounded disciplined.isPublic).1
  checked address := checked_of_init (opened address)

/-- Every step keeps it so. -/
theorem Sound.step {move : Move} {after : Machines numBoxes} (sound : Sound names worker machines)
    (delivering : Delivering names worker machines history)
    (stepped : PostOffice.step names worker machines move = .ok after) :
    Sound names worker after := by
  cases move with
  | machine address act =>
    simp only [PostOffice.step] at stepped
    split at stepped
    · rename_i client moved
      obtain rfl := Except.ok.inj stepped
      have positioned := (delivering.inOrder address).served.positioned
      have moves := positioned.moves disciplined moved
      constructor
      · refine (Function.forall_update_iff machines fun other client =>
          Grounded (postOffice (names other) other (worker other)).owns client.kernel).mpr
          ⟨?_, fun other _ => sound.grounded other⟩
        exact (sound.grounded address).step disciplined.isPublic moved
      · refine (Function.forall_update_iff machines fun other client =>
          Checked (names other) other client).mpr ⟨?_, fun other _ => sound.checked other⟩
        exact (sound.checked address).step (delivering.apart address) positioned moves
    · cases stepped
  | carry address =>
    simp only [PostOffice.step] at stepped
    split at stepped
    · cases stepped
    · rename_i destination packet rest waiting
      obtain rfl := Except.ok.inj stepped
      obtain ⟨parcel, others, shape, -⟩ := (delivering.genuine address).outgoing
        (destination, packet) (by simp [waiting])
      obtain ⟨rfl, rfl⟩ := Prod.mk.inj shape
      refine ⟨carried_forall (fun other client =>
          Grounded (postOffice (names other) other (worker other)).owns client.kernel)
          sound.grounded (sound.grounded address) fun _ grounded => grounded,
        carried_forall (fun other client => Checked (names other) other client) sound.checked ?_
          fun client checked => ?_⟩
      · obtain ⟨sendBusy, socket, boxes, phases, exclusive⟩ := sound.checked address
        exact ⟨sendBusy, socket, boxes, phases, exclusive⟩
      · refine ⟨checked.sendBusy, fun other member => ?_, checked.boxes, checked.phases,
          checked.exclusive⟩
        -- The host brings a packet to the machine that its header names.
        rcases List.mem_append.mp member with old | new
        · exact checked.socket other old
        · rw [List.mem_singleton.mp new, Parcel.decode_packet]

/-- The machines after any run. -/
theorem sound_of_traced (traced : Runs.Traced (step names worker) (Opened names worker main)
    (fun _ _ => True) witnessed machines history) :
    Delivering names worker machines history ∧ Sound names worker machines := by
  refine traced.invariant
    (fun machines history => Delivering names worker machines history ∧
      Sound names worker machines) ?_ ?_
  · exact fun machines opened => ⟨delivering_of_opened opened, sound_of_opened opened⟩
  · exact fun machines move after history before _ stepped =>
      ⟨before.1.step stepped, before.2.step before.1 stepped⟩

/-- A step of all machines that fails is one of its machine that does. -/
theorem machine_of_step {address : NetworkAddress}
    (failed : step names worker machines (.machine address act) = .error fault) :
    (postOffice (names address) address (worker address)).step (machines address) act =
      .error fault := by
  simp only [step] at failed
  split at failed
  · cases failed
  · rename_i wrong
    rw [wrong, Except.error.inj failed]

/--
No `ASSERT` fails behind those on the arguments of `Send` and `Receive`, but for `SendToSocket`'s.

A thread in one of the routines and an interrupt of the network can fail to take a step, as when
the thread does not run. But none of them takes a message from an empty list or uses an object that
is gone, and the only `ASSERT` that they reach and that fails is the one on a packet that is not
lost, and goes to a machine that is not one of those that run.
-/
theorem asserts_hold (traced : Runs.Traced (step names worker) (Opened names worker main)
    (fun _ _ => True) witnessed machines history) (address : NetworkAddress) :
    (∀ chance, step names worker machines (.machine address (.go chance)) = .error fault →
      Excused (machines address) chance fault) ∧
    (∀ signal, step names worker machines (.machine address (.device signal)) = .error fault →
      fault = .disabled) ∧
    ∀ thread, (machines address).kernel.currentThread = some thread →
      (machines address).phase thread ≠ .idle →
        step names worker machines (.machine address (.other .resume)) = .error fault →
          fault = .disabled := by
  obtain ⟨delivering, sound⟩ := sound_of_traced traced
  have inOrder := delivering.inOrder address
  have genuine := delivering.genuine address
  have checked := sound.checked address
  have grounded := sound.grounded address
  refine ⟨fun chance failed => ?_, fun signal failed => ?_, fun thread current busy failed => ?_⟩
  · rcases grounded.step_go disciplined (fun _ _ _ _ did => (does_of_statement did).silent _ _)
      (machine_of_step failed) with done | ⟨thread, current, outside, wrong⟩
    · exact .inl done
    · exact checked.go inOrder genuine current outside wrong
  · have owned (data : PostOffice numBoxes) (semaphore : Nat)
        (handled : interrupt (names address) address signal (machines address).data =
          .ok (data, some semaphore)) :
        (postOffice (names address) address (worker address)).owns
          (.semaphore (.named semaphore)) = true := by
      cases handles_of_interrupt handled with
      | poll | sendDone => simp [owns_iff]
    rcases grounded.step_device owned (machine_of_step failed) with done | wrong
    · exact done
    · exact checked.interrupt genuine wrong
  · have within : ((machines address).phase thread).isIdle = false := by
      cases shape : (machines address).phase thread with
      | idle => exact absurd shape busy
      | _ => rfl
    refine grounded.step_resume current ?_ (machine_of_step failed)
    rcases inOrder.served.positioned.busy thread within with outside | rested
    · simp [outside, Kernel.needs]
    · exact owned_of_rests rested

/-- After a run in which three packets came, no thread of machine 1 finds an `ASSERT` that fails. -/
theorem asserts_hold_overtaking : ∃ machines : Machines 1,
    messages 1 (takenOf (0 : Fin 1)) (Runs.record (step (fun _ => oneBox) fun _ => 1) witnessed
      firstMachines overtaking) = [byteMail 0, byteMail 2, byteMail 1] ∧
    ∀ chance fault, step (fun _ => oneBox) (fun _ => 1) machines (.machine 1 (.go chance)) =
      .error fault → Excused (machines 1) chance fault := by
  obtain ⟨machines, traced⟩ := traced_overtaking
  exact ⟨machines, by decide +kernel, fun chance _ => (asserts_hold traced 1).1 chance⟩

/-- A packet for machine 1 goes wrong while only machine 0 runs. -/
example : Runs.run (step (fun _ => oneBox) fun _ => 1) firstMachines
    [.machine 0 (sendByte 0), .machine 0 (.go ⟨false, [0], List.replicate 39 0⟩)] =
      .error .assertion := by
  rfl

end Nachos.PostOffice
