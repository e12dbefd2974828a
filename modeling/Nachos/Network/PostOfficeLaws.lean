import Mathlib.Data.List.Pairwise
import Nachos.Network.PostOffice

/-! A post office passes one packet at a time to its network device, and fetches each one once. -/

namespace Nachos.PostOffice

open Threads

variable {numBoxes : Nat} {names : Names numBoxes} {netAddr : NetworkAddress}
  {worker main thread : Thread} {client next : Machine numBoxes}
  {act : Act Entry Chance Signal} {phase : Phase numBoxes} {office : PostOffice numBoxes}

/-- A box that passes the `ASSERT`s has that number. -/
theorem boxNumber_eq_ok {number : Int} {box : Fin numBoxes}
    (found : boxNumber numBoxes number = .ok box) : number = box := by
  unfold boxNumber at found
  split at found
  · rename_i lower
    split at found
    · obtain rfl := Except.ok.inj found
      exact (Int.toNat_of_nonneg lower).symm
    · cases found
  · cases found

/-- Packing a message writes the sender and the length into its header, and nothing else. -/
theorem pack_eq_ok {pktHdr : PacketHeader} {mailHdr : MailHeader} {data : List Byte}
    {parcel : Parcel numBoxes} (packed : pack netAddr pktHdr mailHdr data = .ok parcel) :
    parcel.toMail = message netAddr pktHdr mailHdr data := by
  unfold pack at packed
  split at packed
  · split at packed
    · obtain rfl := Except.ok.inj packed
      rfl
    · cases packed
  · cases packed

/-- The statements of the routines. -/
inductive Does (names : Names numBoxes) (netAddr : NetworkAddress) (worker thread : Thread) :
    Act Entry Chance Signal → Phase numBoxes → PostOffice numBoxes →
      Outcome (PostOffice numBoxes) (Phase numBoxes) → Prop
  | send {office : PostOffice numBoxes} {pktHdr : PacketHeader} {mailHdr : MailHeader}
      {data : List Byte} {parcel : Parcel numBoxes}
      (packed : pack netAddr pktHdr mailHdr data = .ok parcel) :
      Does names netAddr worker thread (.enter (.send pktHdr mailHdr data)) .idle office
        ⟨office, some (.acquire names.sendLock), .transmit parcel⟩
  | receive {office : PostOffice numBoxes} {number : Int} {box : Fin numBoxes}
      (found : boxNumber numBoxes number = .ok box) :
      Does names netAddr worker thread (.enter (.receive number)) .idle office
        ⟨office, some (.acquire (names.lock box)), .check box⟩
  | postalDelivery {office : PostOffice numBoxes} {buffer : List Byte} (chosen : thread = worker) :
      Does names netAddr worker thread (.enter (.postalDelivery buffer)) .idle office
        ⟨office, none, .listen buffer⟩
  | transmit {office : PostOffice numBoxes} {parcel : Parcel numBoxes} {chance : Chance}
      {network : Network}
      (accepted : office.network.send netAddr parcel.pktHdr parcel.buffer chance = .ok network) :
      Does names netAddr worker thread (.go chance) (.transmit parcel) office
        ⟨{ office with network := network }, none, .wait parcel⟩
  | wait {office : PostOffice numBoxes} {parcel : Parcel numBoxes} {chance : Chance} :
      Does names netAddr worker thread (.go chance) (.wait parcel) office
        ⟨office, some (.p names.messageSent), .unlock parcel⟩
  | unlock {office : PostOffice numBoxes} {parcel : Parcel numBoxes} {chance : Chance} :
      Does names netAddr worker thread (.go chance) (.unlock parcel) office
        ⟨office, some (.release names.sendLock), .idle⟩
  | listen {office : PostOffice numBoxes} {buffer : List Byte} {chance : Chance} :
      Does names netAddr worker thread (.go chance) (.listen buffer) office
        ⟨office, some (.p names.messageAvailable), .fetch buffer⟩
  | fetch {office : PostOffice numBoxes} {buffer filled : List Byte} {chance : Chance}
      {network : Network} {pktHdr : PacketHeader} {box : Fin numBoxes}
      (received : office.network.receive buffer = (network, pktHdr, filled))
      (found : boxNumber numBoxes (Mail.unpack pktHdr filled).mailHdr.to_.toInt = .ok box)
      (short : (Mail.unpack pktHdr filled).mailHdr.length.toNat ≤ maxMailSize) :
      Does names netAddr worker thread (.go chance) (.fetch buffer) office
        ⟨{ office with network := network }, some (.acquire (names.lock box)),
          .append box (Mail.unpack pktHdr filled) filled⟩
  | append {office : PostOffice numBoxes} {box : Fin numBoxes} {mail : Mail} {buffer : List Byte}
      {chance : Chance} :
      Does names netAddr worker thread (.go chance) (.append box mail buffer) office
        ⟨{ office with boxes := Function.update office.boxes box (office.boxes box ++ [mail]) },
          none, .signal box buffer⟩
  | signal {office : PostOffice numBoxes} {box : Fin numBoxes} {buffer : List Byte}
      {chance : Chance} :
      Does names netAddr worker thread (.go chance) (.signal box buffer) office
        ⟨office, some (.signal (names.listEmpty box) (names.lock box)), .release box buffer⟩
  | release {office : PostOffice numBoxes} {box : Fin numBoxes} {buffer : List Byte}
      {chance : Chance} :
      Does names netAddr worker thread (.go chance) (.release box buffer) office
        ⟨office, some (.release (names.lock box)), .listen buffer⟩
  | sleep {office : PostOffice numBoxes} {box : Fin numBoxes} {chance : Chance}
      (empty : office.boxes box = []) :
      Does names netAddr worker thread (.go chance) (.check box) office
        ⟨office, some (.wait (names.listEmpty box) (names.lock box)), .check box⟩
  | find {office : PostOffice numBoxes} {box : Fin numBoxes} {chance : Chance}
      (stocked : office.boxes box ≠ []) :
      Does names netAddr worker thread (.go chance) (.check box) office ⟨office, none, .take box⟩
  | take {office : PostOffice numBoxes} {box : Fin numBoxes} {chance : Chance} :
      Does names netAddr worker thread (.go chance) (.take box) office
        ⟨{ office with boxes := Function.update office.boxes box (office.boxes box).tail }, none,
          .give box (office.boxes box).head?⟩
  | give {office : PostOffice numBoxes} {box : Fin numBoxes} {mail : Option Mail}
      {chance : Chance} :
      Does names netAddr worker thread (.go chance) (.give box mail) office
        ⟨office, some (.release (names.lock box)), .copy box mail⟩
  | copy {office : PostOffice numBoxes} {box : Fin numBoxes} {mail : Mail} {chance : Chance}
      (short : mail.mailHdr.length.toNat ≤ maxMailSize) :
      Does names netAddr worker thread (.go chance) (.copy box (some mail)) office
        ⟨office, none, .idle⟩

/-- What comes out of a check that fails otherwise has passed it. -/
theorem of_ite {α ε : Type} {condition : Prop} [Decidable condition] {result : α} {error : ε}
    {value : Except ε α} (checked : (if condition then value else .error error) = .ok result) :
    condition ∧ value = .ok result := by
  split at checked
  · exact ⟨‹_›, checked⟩
  · cases checked

/-- Every statement is one of these. -/
theorem does_of_statement {outcome : Outcome (PostOffice numBoxes) (Phase numBoxes)}
    (did : (postOffice names netAddr worker).statement act thread phase office = .ok outcome) :
    Does names netAddr worker thread act phase office outcome := by
  cases act with
  | enter entry =>
    -- A call can only begin in a thread that is in none of the routines.
    cases phase with
    | idle =>
      cases entry with
      | send pktHdr mailHdr data =>
        obtain ⟨parcel, packed, rest⟩ := Runs.bind_eq_ok.mp did
        obtain rfl := Except.ok.inj rest
        exact .send packed
      | receive number =>
        obtain ⟨box, found, rest⟩ := Runs.bind_eq_ok.mp did
        obtain rfl := Except.ok.inj rest
        exact .receive found
      | postalDelivery buffer =>
        obtain ⟨chosen, rest⟩ := of_ite did
        obtain rfl := Except.ok.inj rest
        exact .postalDelivery chosen
    | _ => cases did
  | go chance =>
    -- Each phase allows one statement, `check` two.
    cases phase with
    | idle => cases did
    | transmit parcel =>
      obtain ⟨network, accepted, rest⟩ := Runs.bind_eq_ok.mp did
      obtain rfl := Except.ok.inj rest
      exact .transmit accepted
    | wait parcel =>
      obtain rfl := Except.ok.inj did
      exact .wait
    | unlock parcel =>
      obtain rfl := Except.ok.inj did
      exact .unlock
    | listen buffer =>
      obtain rfl := Except.ok.inj did
      exact .listen
    | fetch buffer =>
      obtain ⟨box, found, rest⟩ := Runs.bind_eq_ok.mp did
      obtain ⟨short, rest⟩ := of_ite rest
      obtain rfl := Except.ok.inj rest
      exact .fetch rfl found short
    | append box mail buffer =>
      obtain rfl := Except.ok.inj did
      exact .append
    | signal box buffer =>
      obtain rfl := Except.ok.inj did
      exact .signal
    | release box buffer =>
      obtain rfl := Except.ok.inj did
      exact .release
    | check box =>
      change (if (office.boxes box).isEmpty then _ else _) = _ at did
      split at did
      · rename_i empty
        obtain rfl := Except.ok.inj did
        exact .sleep (List.isEmpty_iff.mp empty)
      · rename_i stocked
        obtain rfl := Except.ok.inj did
        exact .find fun empty => stocked (List.isEmpty_iff.mpr empty)
    | take box =>
      obtain rfl := Except.ok.inj did
      exact .take
    | give box mail =>
      obtain rfl := Except.ok.inj did
      exact .give
    | copy box mail =>
      cases mail with
      | none => cases did
      | some mail =>
        obtain ⟨short, rest⟩ := of_ite did
        obtain rfl := Except.ok.inj rest
        exact .copy short
  -- Interrupts and other steps are not statements of a thread.
  | device | other => cases did

/-- The names that have to be different ones. -/
structure Names.Apart (names : Names numBoxes) : Prop where
  semaphores : names.messageAvailable ≠ names.messageSent
  locks : ∀ box, names.lock box ≠ names.sendLock
  boxes : Function.Injective names.lock

/-- The objects of a post office. -/
theorem owns_iff {object : Object} : (postOffice names netAddr worker).owns object = true ↔
    object = .semaphore (.named names.messageAvailable) ∨
      object = .semaphore (.named names.messageSent) ∨ object = .lock names.sendLock ∨
      ∃ box, object = .lock (names.lock box) ∨ object = .condition (names.listEmpty box) := by
  simp [postOffice, Names.objects, List.map_flatMap]

/-- Objects that are created one after the other are different ones. -/
theorem apart_of_made {kernel : Kernel}
    (made : (postOffice names netAddr worker).Made names.objects main kernel) : names.Apart := by
  obtain ⟨before, history, -, -, ran⟩ := made.made
  obtain ⟨-, distinct⟩ := nodup_of_creates ran
  simp only [Names.objects, List.cons_append, List.nil_append, List.map_cons, List.nodup_cons,
    List.mem_cons, Object.semaphore.injEq, SemaphoreName.named.injEq, not_or] at distinct
  obtain ⟨⟨semaphores, -⟩, -, fresh, boxes⟩ := distinct
  rw [List.map_flatMap] at fresh boxes
  refine ⟨semaphores, fun box same => fresh ?_, fun box other same => ?_⟩
  · exact List.mem_flatMap.mpr ⟨box, List.mem_finRange box, by simp [same]⟩
  · -- Two boxes with the same lock would have created it twice.
    by_contra differ
    have pairs := (List.nodup_flatMap.mp boxes).2
    have symmetric : Std.Symm (Function.onFun List.Disjoint fun box =>
        List.map Prod.fst [((Object.lock (names.lock box), 0) : Object × Int),
          (.condition (names.listEmpty box), 0)]) := ⟨fun _ _ disjoint => disjoint.symm⟩
    exact pairs.forall (List.mem_finRange box) (List.mem_finRange other) differ
      (List.mem_cons_self ..) (by simp [same])

/-- Where a thread can sleep in each phase. -/
def rests (names : Names numBoxes) : Phase numBoxes → Place → Prop
  | .transmit _, place => place = .inAcquire names.sendLock
  | .unlock _, place => place = .inP (.named names.messageSent)
  | .fetch _, place => place = .inP (.named names.messageAvailable)
  | .append box _ _, place => place = .inAcquire (names.lock box)
  | .check box, place =>
    place = .inAcquire (names.lock box) ∨ place = .inWait (names.listEmpty box) (names.lock box)
  | _, _ => False

/-- Programs can name none of the objects by another name. -/
theorem disciplined : Disciplined (postOffice names netAddr worker) (rests names) where
  isPublic object owned := by
    rcases owns_iff.mp owned with rfl | rfl | rfl | ⟨box, rfl | rfl⟩ <;> rfl
  calls act thread phase data outcome did call calls := by
    cases does_of_statement did with
    -- The caller sleeps at the object it calls at most, and its new phase allows it to.
    | send =>
      obtain rfl := Option.some.inj calls
      exact ⟨by simp [Call.objects, owns_iff], fun place sleeps => ⟨rfl, sleeps⟩⟩
    | receive =>
      obtain rfl := Option.some.inj calls
      exact ⟨by simp [Call.objects, owns_iff], fun place sleeps => ⟨rfl, .inl sleeps⟩⟩
    | wait | listen | fetch =>
      obtain rfl := Option.some.inj calls
      exact ⟨by simp [Call.objects, owns_iff], fun place sleeps => ⟨rfl, sleeps⟩⟩
    | sleep =>
      obtain rfl := Option.some.inj calls
      exact ⟨by simp [Call.objects, owns_iff], fun place sleeps => ⟨rfl, sleeps.symm⟩⟩
    -- Giving a lock back and signalling do not put the caller to sleep.
    | unlock | signal | release | give =>
      obtain rfl := Option.some.inj calls
      exact ⟨by simp [Call.objects, owns_iff], fun place sleeps => sleeps.elim⟩
    | postalDelivery | transmit | append | find | take | copy => cases calls
  owned phase place rested := by
    cases phase with
    | transmit => simp [show place = _ from rested, Place.touches, owns_iff]
    | unlock => simp [show place = _ from rested, Place.touches, owns_iff]
    | fetch => simp [show place = _ from rested, Place.touches, owns_iff]
    | append => simp [show place = _ from rested, Place.touches, owns_iff]
    | check box => rcases rested with rfl | rfl <;> simp [Place.touches, owns_iff]
    | _ => exact rested.elim
  reacquires phase condition held rested := by
    cases phase with
    | check box =>
      rcases rested with there | there
      · cases there
      · cases there
        exact .inl rfl
    | transmit | unlock | fetch | append => cases rested
    | _ => exact rested.elim

/-- A thread of `Send` is inside from `sendLock->Acquire()` to `sendLock->Release()`. -/
def sending : Phase numBoxes → Bool
  | .transmit _ | .wait _ | .unlock _ => true
  | _ => false

/-- How far a thread is with its packet in each phase. -/
def stage : Phase numBoxes → Stage Unit
  | .wait _ => .issued ()
  | .unlock _ => .awaited ()
  | _ => .none

/-- The packets that are outstanding. -/
def outstanding (office : PostOffice numBoxes) : List Unit :=
  List.replicate office.network.scheduled ()

/-- A packet that the device accepts is outstanding, and on its way unless it is lost. -/
theorem send_eq_ok {before after : Network} {hdr : PacketHeader} {data : List Byte}
    {chance : Chance} (accepted : before.send netAddr hdr data chance = .ok after) :
    hdr.from_ = netAddr ∧ after.scheduled = before.scheduled + 1 ∧
      after.sendBusy = before.sendBusy ∧ after.inHdr = before.inHdr ∧ after.inbox = before.inbox ∧
      after.socket = before.socket ∧
      (after.outgoing = before.outgoing ∨ after.outgoing = before.outgoing ++ [(hdr.to_,
        PacketHeader.codec.encode hdr ++ data.take hdr.length.toNat ++ chance.rest)]) := by
  unfold Network.send at accepted
  split at accepted
  · rename_i allowed
    split at accepted
    · obtain rfl := Except.ok.inj accepted
      exact ⟨allowed.2.2.2, rfl, rfl, rfl, rfl, rfl, .inl rfl⟩
    · obtain ⟨-, fits⟩ := of_ite accepted
      obtain ⟨-, done⟩ := of_ite fits
      obtain rfl := Except.ok.inj done
      exact ⟨allowed.2.2.2, rfl, rfl, rfl, rfl, rfl, .inr rfl⟩
  · cases accepted

/-- The device when it has read a packet from its socket. -/
def filled (network : Network) (packet : List Byte) (rest : List (List Byte)) : Network :=
  { network with
    inHdr := PacketHeader.codec.decode (packet.take PacketHeader.codec.size)
    inbox := bcopy (packet.drop PacketHeader.codec.size) network.inbox
      (PacketHeader.codec.decode (packet.take PacketHeader.codec.size)).length.toNat
    socket := rest }

/-- What the handlers of the interrupts do. -/
inductive Handles (names : Names numBoxes) (office : PostOffice numBoxes) :
    Signal → PostOffice numBoxes → Option Nat → Prop
  | idle : Handles names office .networkReadPoll office none
  | poll {packet : List Byte} {rest : List (List Byte)} (empty : office.network.inHdr.length = 0)
      (waiting : office.network.socket = packet :: rest) :
      Handles names office .networkReadPoll
        { office with network := filled office.network packet rest } (some names.messageAvailable)
  | sendDone (scheduled : 0 < office.network.scheduled) :
      Handles names office .networkSendDone
        { office with network := { office.network with
          sendBusy := false
          scheduled := office.network.scheduled - 1 } } (some names.messageSent)

/-- Every interrupt is one of these. -/
theorem handles_of_interrupt {signal : Signal} {after : PostOffice numBoxes} {raised : Option Nat}
    (handled : interrupt names netAddr signal office = .ok (after, raised)) :
    Handles names office signal after raised := by
  cases signal with
  | networkReadPoll =>
    obtain ⟨⟨network, came⟩, polled, rest⟩ := Runs.bind_eq_ok.mp handled
    obtain ⟨rfl, rfl⟩ := Prod.mk.inj (Except.ok.inj rest)
    unfold Network.checkPktAvail at polled
    split at polled
    · -- A packet is still in the buffer.
      obtain ⟨rfl, rfl⟩ := Prod.mk.inj (Except.ok.inj polled)
      exact .idle
    · rename_i empty
      split at polled
      · -- There is none at the socket.
        obtain ⟨rfl, rfl⟩ := Prod.mk.inj (Except.ok.inj polled)
        exact .idle
      · rename_i packet rest waiting
        obtain ⟨-, polled⟩ := of_ite polled
        obtain ⟨rfl, rfl⟩ := Prod.mk.inj (Except.ok.inj polled)
        exact .poll (not_not.mp empty) waiting
  | networkSendDone =>
    obtain ⟨network, done, rest⟩ := Runs.bind_eq_ok.mp handled
    obtain ⟨rfl, rfl⟩ := Prod.mk.inj (Except.ok.inj rest)
    obtain ⟨scheduled, done⟩ := of_ite done
    obtain rfl := Except.ok.inj done
    exact .sendDone scheduled

/-- `sendLock` is taken and given back by turns. -/
theorem locking (apart : names.Apart) :
    Locking (postOffice names netAddr worker) names.sendLock sending where
  owned := owns_iff.mpr (.inr (.inr (.inl rfl)))
  silent act thread phase data outcome did silent := by
    cases does_of_statement did with
    | postalDelivery | transmit | append | find | take | copy => rfl
    | _ => cases silent
  acquires act thread phase data outcome did calls := by
    cases does_of_statement did with
    | send => exact ⟨rfl, rfl⟩
    -- The locks of the boxes are other ones.
    | receive | fetch =>
      simp only [Option.some.injEq, Call.acquire.injEq] at calls
      exact absurd calls (apart.locks _)
    | _ => cases calls
  releases act thread phase data outcome did calls := by
    cases does_of_statement did with
    | unlock => exact ⟨rfl, rfl⟩
    | release | give =>
      simp only [Option.some.injEq, Call.release.injEq] at calls
      exact absurd calls (apart.locks _)
    | _ => cases calls
  waits act thread phase data outcome condition did calls := by
    cases does_of_statement did with
    | sleep =>
      simp only [Option.some.injEq, Call.wait.injEq] at calls
      exact absurd calls.2 (apart.locks _)
    | _ => cases calls
  others act thread phase data outcome call did calls spares := by
    cases does_of_statement did with
    | send | unlock =>
      obtain rfl := Option.some.inj calls
      exact absurd rfl spares
    | receive | wait | listen | fetch | signal | release | sleep | give => rfl
    | postalDelivery | transmit | append | find | take | copy => cases calls

/-- Each packet is sent under the lock, and completed by its interrupt. -/
theorem serving (apart : names.Apart) : Serving (postOffice names netAddr worker) (rests names)
    names.messageSent sending stage outstanding where
  owned := owns_iff.mpr (.inr (.inl rfl))
  busy phase within := by
    cases phase with
    | idle => cases within
    | _ => rfl
  within phase out := by
    cases phase with
    | wait | unlock => cases out
    | _ => rfl
  sleeps phase place rested := by
    cases phase with
    | transmit => simp [show place = _ from rested, stage]
    | unlock => simp [show place = _ from rested, stage]
    | fetch => simp [show place = _ from rested, stage, apart.semaphores]
    | append => simp [show place = _ from rested, stage]
    | check => rcases rested with rfl | rfl <;> simp [stage]
    | _ => exact rested.elim
  statements act thread phase data outcome did := by
    cases does_of_statement did with
    | transmit accepted =>
      refine .issue () rfl rfl rfl rfl ?_
      rw [outstanding, outstanding, (send_eq_ok accepted).2.1, List.replicate_succ']
    | wait => exact .await () rfl rfl rfl rfl
    | unlock => exact .finish () rfl rfl (by simp [Call.objects]) rfl
    | listen => exact .keep rfl rfl (by simp [Call.objects, apart.semaphores.symm])
    | fetch received =>
      refine .keep rfl ?_ (by simp [Call.objects])
      -- Receiving touches the header only.
      obtain ⟨rfl, -⟩ := Prod.mk.inj received
      rfl
    | _ => exact .keep rfl rfl (by simp [Call.objects])
  devices signal data after semaphore handled := by
    cases handles_of_interrupt handled with
    -- A poll concerns no packet that is outstanding.
    | idle => exact .inr ⟨rfl, by simp⟩
    | poll empty waiting => exact .inr ⟨rfl, by simpa using apart.semaphores⟩
    | sendDone scheduled =>
      refine .inl ⟨(), by simpa [outstanding] using scheduled.ne', ?_, rfl⟩
      simp [outstanding, List.erase_replicate_self]

/-- The postal worker is in its routine. -/
def works : Phase numBoxes → Bool
  | .listen _ | .fetch _ | .append _ _ _ | .signal _ _ | .release _ _ => true
  | _ => false

/-- It waits for a packet, or has been told of one. -/
def awaits : Phase numBoxes → Bool
  | .fetch _ => true
  | _ => false

/-- The packets in the buffer of the device. -/
def supply (office : PostOffice numBoxes) : Nat := if office.network.inHdr.length = 0 then 0 else 1

/-- The next packet at the socket says that it is not empty. -/
def sane (signal : Signal) (office : PostOffice numBoxes) : Prop :=
  signal = .networkReadPoll → ∀ packet ∈ office.network.socket,
    (PacketHeader.codec.decode (packet.take PacketHeader.codec.size)).length ≠ 0

/-- The postal worker takes the packets of which the interrupts tell it. -/
theorem consuming (apart : names.Apart) : Consuming (postOffice names netAddr worker) (rests names)
    names.messageAvailable worker works awaits supply sane where
  owned := owns_iff.mpr (.inl rfl)
  busy phase waits := by
    cases phase with
    | fetch => rfl
    | _ => cases waits
  within phase waits := by
    cases phase with
    | fetch => rfl
    | _ => cases waits
  sleeps phase place rested := by
    cases phase with
    | transmit => simp [show place = _ from rested, awaits]
    | unlock => simp [show place = _ from rested, awaits, apart.semaphores.symm]
    | fetch => simp [show place = _ from rested, awaits]
    | append => simp [show place = _ from rested, awaits]
    | check => rcases rested with rfl | rfl <;> simp [awaits]
    | _ => exact rested.elim
  statements act thread phase data outcome did := by
    cases does_of_statement did with
    | listen => exact .await rfl rfl rfl rfl
    | fetch received =>
      obtain ⟨rfl, -⟩ := Prod.mk.inj received
      refine .take rfl rfl (by simp [Call.objects]) fun stocked => ?_
      -- The header says that the buffer is empty from now on.
      have full : data.network.inHdr.length ≠ 0 := fun empty => by simp [supply, empty] at stocked
      simp only [supply, if_neg full, if_pos]
    | transmit accepted =>
      refine .keep rfl rfl ?_ (by simp)
      simp only [supply, (send_eq_ok accepted).2.2.2.1]
    | wait => exact .keep rfl rfl rfl (by simp [Call.objects, apart.semaphores])
    | _ => exact .keep rfl rfl rfl (by simp [Call.objects])
  consumer act thread phase data outcome did labours := by
    cases does_of_statement did with
    | postalDelivery chosen => exact .inr chosen
    | listen | fetch | append | signal | release => exact .inl rfl
    | _ => cases labours
  few data := by
    unfold supply
    split <;> simp
  devices signal data after semaphore sound handled := by
    cases handles_of_interrupt handled with
    | idle => exact .inr ⟨rfl, by simp⟩
    | @poll packet rest empty waiting =>
      -- The packet fills the buffer, for it says that it is not empty.
      have full : (filled data.network packet rest).inHdr.length ≠ 0 :=
        sound rfl packet (by simp [waiting])
      exact .inl ⟨by simp only [supply, if_pos empty, if_neg full], rfl⟩
    | sendDone scheduled => exact .inr ⟨rfl, by simpa using apart.semaphores.symm⟩

/-- One packet is outstanding at most, and every packet in the buffer of the device is told of. -/
structure InOrder (names : Names numBoxes) (netAddr : NetworkAddress) (worker : Thread)
    (client : Machine numBoxes) : Prop where
  served : Served (postOffice names netAddr worker) (rests names) names.sendLock names.messageSent
    sending stage outstanding client
  supplied : Supplied names.messageAvailable worker works awaits supply client

/-- A new post office is in order. -/
theorem inOrder_of_init (init : Init names netAddr worker main client) :
    InOrder names netAddr worker client := by
  have apart := apart_of_made init.made
  obtain ⟨-, away, fresh⟩ := init.made.grounded disciplined.isPublic
  -- The constructor makes both semaphores with value 0.
  have sent : client.kernel.value (.named names.messageSent) = 0 :=
    (fresh (.semaphore (.named names.messageSent), 0) (by simp [Names.objects])).2
  have available : client.kernel.value (.named names.messageAvailable) = 0 :=
    (fresh (.semaphore (.named names.messageAvailable), 0) (by simp [Names.objects])).2
  refine ⟨.start (locking apart) (serving apart) away (fun thread => ?_) sent ?_, ?_, ?_⟩
  · rw [init.idle]
    rfl
  · simp [outstanding, init.scheduled]
  · intro thread labours
    rw [init.idle] at labours
    cases labours
  · simp [available, Client.entitled, init.idle, awaits, supply, init.inHdr]

/-- Every step of a post office keeps it in order, if its socket holds packets only. -/
theorem InOrder.step (inOrder : InOrder names netAddr worker client) (apart : names.Apart)
    (sound : ∀ packet ∈ client.data.network.socket,
      (PacketHeader.codec.decode (packet.take PacketHeader.codec.size)).length ≠ 0)
    (moves : Moves (postOffice names netAddr worker) (rests names) client act next) :
    InOrder names netAddr worker next where
  served := inOrder.served.step disciplined (locking apart) (serving apart) moves
  supplied := inOrder.supplied.step (consuming apart) (fun _ _ _ => sound) moves

/-- The worker goes on to fetch a packet only when one has come. -/
theorem InOrder.full (inOrder : InOrder names netAddr worker client)
    (waits : awaits (client.phase thread) = true)
    (outside : client.kernel.place thread = .outside) : client.data.network.inHdr.length ≠ 0 := by
  have labours : works (client.phase thread) = true := by
    cases shape : client.phase thread with
    | fetch => rfl
    | _ => simp [shape, awaits] at waits
  obtain rfl := inOrder.supplied.alone thread labours
  intro empty
  have stocked := inOrder.supplied.pos (by simp [Client.entitled, waits, outside])
  simp [supply, empty] at stocked

end Nachos.PostOffice
