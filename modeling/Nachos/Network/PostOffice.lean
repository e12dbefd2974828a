import Nachos.Filesys.OpenFile
import Nachos.Threads.Supply

/-! The post offices of several machines, the network devices below them, and the host's sockets. -/

namespace Nachos

open Threads (Routines Client Outcome Act)
open Filesys (wordCodec)

/-- `NetworkAddress`. -/
abbrev NetworkAddress := BitVec 32

/-- `PacketHeader`. -/
structure PacketHeader where
  to_ : NetworkAddress
  from_ : NetworkAddress
  length : BitVec 32
  deriving DecidableEq, Repr

/-- `MailHeader`. -/
structure MailHeader where
  to_ : BitVec 32
  from_ : BitVec 32
  length : BitVec 32
  deriving DecidableEq, Repr

/-- A packet header in memory. -/
def PacketHeader.codec : Codec Byte PacketHeader :=
  (wordCodec.pair (wordCodec.pair wordCodec)).through
    (fun value => ⟨value.1, value.2.1, value.2.2⟩)
    (fun header => (header.to_, header.from_, header.length))
    (fun _ => rfl)

/-- A mail header in memory. -/
def MailHeader.codec : Codec Byte MailHeader :=
  (wordCodec.pair (wordCodec.pair wordCodec)).through
    (fun value => ⟨value.1, value.2.1, value.2.2⟩)
    (fun header => (header.to_, header.from_, header.length))
    (fun _ => rfl)

/-- `MaxWireSize`. -/
def maxWireSize : Nat := 64

/-- `MaxPacketSize`. -/
def maxPacketSize : Nat := maxWireSize - PacketHeader.codec.size

/-- `MaxMailSize`. -/
def maxMailSize : Nat := maxPacketSize - MailHeader.codec.size

/-- `bcopy` of so many bytes to the front of a buffer. -/
def bcopy (source target : List Byte) (count : Nat) : List Byte :=
  source.take count ++ target.drop count

/-- `Mail`, with the bytes of `data` that its constructor fills. -/
structure Mail where
  pktHdr : PacketHeader
  mailHdr : MailHeader
  data : List Byte
  deriving DecidableEq, Repr

/-- The `Mail` that `MailBox::Put` makes of a packet, whose mail header is in front of the data. -/
def Mail.unpack (pktHdr : PacketHeader) (buffer : List Byte) : Mail :=
  let mailHdr := MailHeader.codec.decode (buffer.take MailHeader.codec.size)
  ⟨pktHdr, mailHdr, (buffer.drop MailHeader.codec.size).take mailHdr.length.toNat⟩

/-- A message that has passed the `ASSERT`s of `PostOffice::Send`, and has its length filled in. -/
structure Parcel (numBoxes : Nat) extends Mail where
  fits : mailHdr.length.toNat ≤ maxMailSize
  boxed : 0 ≤ mailHdr.to_.toInt ∧ mailHdr.to_.toInt < numBoxes
  filled : data.length = mailHdr.length.toNat
  whole : pktHdr.length = mailHdr.length + BitVec.ofNat 32 MailHeader.codec.size
  deriving DecidableEq

/-- The buffer in which `PostOffice::Send` concatenates the mail header and the data. -/
def Parcel.buffer {numBoxes : Nat} (parcel : Parcel numBoxes) : List Byte :=
  MailHeader.codec.encode parcel.mailHdr ++ parcel.data

/-- `Network`, with what the host and the interrupt hardware hold for it. -/
structure Network where
  sendBusy : Bool
  inHdr : PacketHeader
  inbox : List Byte
  /-- How many `NetworkSendDone` interrupts are to come. -/
  scheduled : Nat
  /-- The packets that wait at `sock`, oldest first. -/
  socket : List (List Byte)
  /-- The packets that the host has yet to take to the socket of an address, oldest first. -/
  outgoing : List (NetworkAddress × List Byte)
  deriving DecidableEq, Repr

/-- What `Network::Send` does not determine. -/
structure Chance where
  /-- `Random() % 100 >= chanceToWork * 100`. -/
  lost : Bool
  /-- The machines that run, so that their sockets have their names. -/
  running : List NetworkAddress
  /-- What is in the rest of its buffer, which nobody initialises. -/
  rest : List Byte
  deriving DecidableEq, Repr

namespace Network

/-- `Network::Send`. -/
def send (network : Network) (ident : NetworkAddress) (hdr : PacketHeader) (data : List Byte)
    (chance : Chance) : Except Fault Network :=
  -- `sendBusy` is only ever cleared, so it does not keep a second packet out.
  if network.sendBusy = false ∧ 0 < hdr.length.toNat ∧ hdr.length.toNat ≤ maxPacketSize ∧
      hdr.from_ = ident then
    let network := { network with scheduled := network.scheduled + 1 }
    if chance.lost then .ok network
    else
      -- The buffer always has the size of the wire, so the rest fills it up.
      let buffer := PacketHeader.codec.encode hdr ++ data.take hdr.length.toNat ++ chance.rest
      if buffer.length = maxWireSize then
        -- `SendToSocket` has sent nothing if there is no such socket.
        if hdr.to_ ∈ chance.running then
          .ok { network with outgoing := network.outgoing ++ [(hdr.to_, buffer)] }
        else .error .assertion
      else .error .disabled
  else .error .assertion

/-- `Network::SendDone`, for an interrupt that has been scheduled. -/
def sendDone (network : Network) : Except Fault Network :=
  if 0 < network.scheduled then
    .ok { network with sendBusy := false, scheduled := network.scheduled - 1 }
  else .error .disabled

/-- `Network::CheckPktAvail`, and whether it calls the read handler. -/
def checkPktAvail (network : Network) (ident : NetworkAddress) : Except Fault (Network × Bool) :=
  -- A packet that is already buffered keeps the others in the socket.
  if network.inHdr.length ≠ 0 then .ok (network, false)
  else match network.socket with
    | [] => .ok (network, false)
    | buffer :: rest =>
      -- Divide the packet into its header and its data.
      let inHdr := PacketHeader.codec.decode (buffer.take PacketHeader.codec.size)
      if inHdr.to_ = ident ∧ inHdr.length.toNat ≤ maxPacketSize then
        .ok ({ network with
          inHdr := inHdr
          inbox := bcopy (buffer.drop PacketHeader.codec.size) network.inbox inHdr.length.toNat
          socket := rest }, true)
      else .error .assertion

/-- `Network::Receive` into a buffer, and the header that it returns. -/
def receive (network : Network) (data : List Byte) : Network × PacketHeader × List Byte :=
  -- Without a packet the buffer keeps what was in it.
  ({ network with inHdr := { network.inHdr with length := 0 } }, network.inHdr,
    if network.inHdr.length ≠ 0 then bcopy network.inbox data network.inHdr.length.toNat else data)

end Network

/-- `PostOffice`, with the lists of its mail boxes. -/
structure PostOffice (numBoxes : Nat) where
  network : Network
  boxes : Fin numBoxes → List Mail

namespace PostOffice

variable {numBoxes : Nat}

/-- The semaphores and the locks of a post office and its mail boxes. -/
structure Names (numBoxes : Nat) where
  messageAvailable : Nat
  messageSent : Nat
  sendLock : Nat
  /-- The `lock` of the list of each box. -/
  lock : Fin numBoxes → Nat
  /-- The `listEmpty` of the list of each box. -/
  listEmpty : Fin numBoxes → Nat

/-- Where a thread goes on in one of the routines, once it is outside the primitives. -/
inductive Phase (numBoxes : Nat) where
  /-- In none of them. -/
  | idle
  /-- `Send` has `sendLock`, and calls `network->Send`. -/
  | transmit (parcel : Parcel numBoxes)
  /-- `Send` waits for `messageSent`. -/
  | wait (parcel : Parcel numBoxes)
  /-- `Send` releases `sendLock` to return. -/
  | unlock (parcel : Parcel numBoxes)
  /-- `PostalDelivery` waits for `messageAvailable`. -/
  | listen (buffer : List Byte)
  /-- `PostalDelivery` fetches a packet from the network, and puts it into its box. -/
  | fetch (buffer : List Byte)
  /-- `SynchList::Append` has the lock of the box, and puts the mail on its list. -/
  | append (box : Fin numBoxes) (mail : Mail) (buffer : List Byte)
  /-- `SynchList::Append` signals the condition. -/
  | signal (box : Fin numBoxes) (buffer : List Byte)
  /-- `SynchList::Append` releases the lock. -/
  | release (box : Fin numBoxes) (buffer : List Byte)
  /-- `SynchList::Remove` has the lock of the box, and looks at its list. -/
  | check (box : Fin numBoxes)
  /-- `SynchList::Remove` has seen that the list is not empty. -/
  | take (box : Fin numBoxes)
  /-- `SynchList::Remove` has taken the mail, if there was any, and releases the lock. -/
  | give (box : Fin numBoxes) (mail : Option Mail)
  /-- `MailBox::Get` copies the mail to its caller, and `Receive` returns. -/
  | copy (box : Fin numBoxes) (mail : Option Mail)
  deriving DecidableEq

/-- Is the thread outside of the routines? -/
def Phase.isIdle : Phase numBoxes → Bool
  | .idle => true
  | _ => false

/-- What a thread can call. -/
inductive Entry where
  | send (pktHdr : PacketHeader) (mailHdr : MailHeader) (data : List Byte)
  | receive (box : Int)
  /-- The routine of the postal worker, whose buffer is not initialised. -/
  | postalDelivery (buffer : List Byte)
  deriving DecidableEq, Repr

/-- The interrupts of the network device. -/
inductive Signal where
  | networkReadPoll
  | networkSendDone
  deriving DecidableEq, Repr

/-- The `ASSERT`s on the number of a box. -/
def boxNumber (numBoxes : Nat) (box : Int) : Except Fault (Fin numBoxes) :=
  if lower : 0 ≤ box then
    if upper : box < numBoxes then .ok ⟨box.toNat, by omega⟩ else .error .assertion
  else .error .assertion

/-- The message that a call of `PostOffice::Send` stands for, with its packet header filled in. -/
def message (netAddr : NetworkAddress) (pktHdr : PacketHeader) (mailHdr : MailHeader)
    (data : List Byte) : Mail where
  pktHdr := { pktHdr with
    from_ := netAddr
    length := mailHdr.length + BitVec.ofNat 32 MailHeader.codec.size }
  mailHdr := mailHdr
  data := data.take mailHdr.length.toNat

/-- `PostOffice::Send` up to the lock. -/
def pack (netAddr : NetworkAddress) (pktHdr : PacketHeader) (mailHdr : MailHeader)
    (data : List Byte) : Except Fault (Parcel numBoxes) :=
  if checked : mailHdr.length.toNat ≤ maxMailSize ∧ 0 ≤ mailHdr.to_.toInt ∧
      mailHdr.to_.toInt < numBoxes then
    -- The data behind the pointer are as long as their header says.
    if enough : mailHdr.length.toNat ≤ data.length then
      .ok ⟨message netAddr pktHdr mailHdr data, checked.1, checked.2,
        List.length_take_of_le enough, rfl⟩
    else .error (.wildAccess data.length)
  else .error .assertion

/-- The first statements of the routines. -/
def enter (names : Names numBoxes) (netAddr : NetworkAddress) (worker thread : Thread)
    (entry : Entry) (office : PostOffice numBoxes) :
    Except Fault (Outcome (PostOffice numBoxes) (Phase numBoxes)) :=
  match entry with
  | .send pktHdr mailHdr data => do
    let parcel ← pack netAddr pktHdr mailHdr data
    return ⟨office, some (.acquire names.sendLock), .transmit parcel⟩
  | .receive box => do
    let box ← boxNumber numBoxes box
    return ⟨office, some (.acquire (names.lock box)), .check box⟩
  | .postalDelivery buffer =>
    -- The constructor forks one thread for this, and nobody else calls it.
    if thread = worker then .ok ⟨office, none, .listen buffer⟩ else .error .disabled

/-- The statements behind them. -/
def go (names : Names numBoxes) (netAddr : NetworkAddress) (_ : Thread) (phase : Phase numBoxes)
    (chance : Chance) (office : PostOffice numBoxes) :
    Except Fault (Outcome (PostOffice numBoxes) (Phase numBoxes)) :=
  match phase with
  | .idle => .error .disabled
  | .transmit parcel => do
    let network ← office.network.send netAddr parcel.pktHdr parcel.buffer chance
    return ⟨{ office with network := network }, none, .wait parcel⟩
  | .wait parcel => .ok ⟨office, some (.p names.messageSent), .unlock parcel⟩
  | .unlock _ => .ok ⟨office, some (.release names.sendLock), .idle⟩
  | .listen buffer => .ok ⟨office, some (.p names.messageAvailable), .fetch buffer⟩
  | .fetch buffer => do
    -- The worker does not look whether a packet was there, it trusts the semaphore.
    let (network, pktHdr, buffer) := office.network.receive buffer
    let mail := Mail.unpack pktHdr buffer
    let box ← boxNumber numBoxes mail.mailHdr.to_.toInt
    if mail.mailHdr.length.toNat ≤ maxMailSize then
      return ⟨{ office with network := network }, some (.acquire (names.lock box)),
        .append box mail buffer⟩
    else .error .assertion
  | .append box mail buffer =>
    .ok ⟨{ office with boxes := Function.update office.boxes box (office.boxes box ++ [mail]) },
      none, .signal box buffer⟩
  | .signal box buffer =>
    .ok ⟨office, some (.signal (names.listEmpty box) (names.lock box)), .release box buffer⟩
  | .release box buffer => .ok ⟨office, some (.release (names.lock box)), .listen buffer⟩
  | .check box =>
    if (office.boxes box).isEmpty then
      .ok ⟨office, some (.wait (names.listEmpty box) (names.lock box)), .check box⟩
    else .ok ⟨office, none, .take box⟩
  | .take box =>
    -- An empty list would give a null pointer.
    .ok ⟨{ office with boxes := Function.update office.boxes box (office.boxes box).tail }, none,
      .give box (office.boxes box).head?⟩
  | .give box mail => .ok ⟨office, some (.release (names.lock box)), .copy box mail⟩
  | .copy _ none => .error (.wildAccess 0)
  | .copy _ (some mail) =>
    if mail.mailHdr.length.toNat ≤ maxMailSize then .ok ⟨office, none, .idle⟩
    else .error .assertion

/-- `NetworkReadPoll` and `NetworkSendDone`, with `IncomingPacket` and `PacketSent`. -/
def interrupt (names : Names numBoxes) (netAddr : NetworkAddress) (signal : Signal)
    (office : PostOffice numBoxes) : Except Fault (PostOffice numBoxes × Option Nat) :=
  match signal with
  | .networkReadPoll => do
    let (network, came) ← office.network.checkPktAvail netAddr
    return ({ office with network := network }, if came then some names.messageAvailable else none)
  | .networkSendDone => do
    let network ← office.network.sendDone
    return ({ office with network := network }, some names.messageSent)

/-- The objects that the constructors create, in their order and with their initial values. -/
def Names.objects (names : Names numBoxes) : List (Threads.Object × Int) :=
  [(.semaphore (.named names.messageAvailable), 0), (.semaphore (.named names.messageSent), 0),
    (.lock names.sendLock, 0)] ++
  (List.finRange numBoxes).flatMap fun box =>
    [(.lock (names.lock box), 0), (.condition (names.listEmpty box), 0)]

/-- The post office of a machine, with objects of its own. -/
def postOffice (names : Names numBoxes) (netAddr : NetworkAddress) (worker : Thread) :
    Routines (PostOffice numBoxes) (Phase numBoxes) Entry Chance Signal where
  owns object := object ∈ names.objects.map Prod.fst
  idle := Phase.isIdle
  enter := enter names netAddr worker
  go := go names netAddr
  device := interrupt names netAddr

/-- A machine: its kernel, its post office, and where its threads are in the routines. -/
abbrev Machine (numBoxes : Nat) := Client (PostOffice numBoxes) (Phase numBoxes)

/-- The constructor has run, and nobody has used the post office yet. -/
structure Init (names : Names numBoxes) (netAddr : NetworkAddress) (worker main : Thread)
    (client : Machine numBoxes) : Prop where
  made : (postOffice names netAddr worker).Made names.objects main client.kernel
  idle : ∀ thread, client.phase thread = .idle
  boxes : ∀ box, client.data.boxes box = []
  sendBusy : client.data.network.sendBusy = false
  inHdr : client.data.network.inHdr.length = 0
  scheduled : client.data.network.scheduled = 0
  socket : client.data.network.socket = []
  outgoing : client.data.network.outgoing = []

/-- What the threads of a machine do with mail. -/
inductive Event (numBoxes : Nat) where
  /-- A call of `Send` begins. -/
  | called (thread : Thread) (mail : Mail)
  /-- It passes its message to `Network::Send`. -/
  | passed (thread : Thread) (mail : Mail)
  /-- It returns. -/
  | sent (thread : Thread) (mail : Mail)
  /-- A call of `Receive` begins. -/
  | asked (thread : Thread) (box : Fin numBoxes)
  /-- It takes a message off the list of the box. -/
  | taken (thread : Thread) (box : Fin numBoxes) (mail : Mail)
  /-- It returns the message. -/
  | returned (thread : Thread) (box : Fin numBoxes) (mail : Mail)
  deriving DecidableEq

/-- What can be seen of the statement that a thread executes. -/
def seen (netAddr : NetworkAddress) (thread : Thread) (phase : Phase numBoxes)
    (office : PostOffice numBoxes) (act : Act Entry Chance Signal) : List (Event numBoxes) :=
  match act with
  | .enter (.send pktHdr mailHdr data) => [.called thread (message netAddr pktHdr mailHdr data)]
  | .enter (.receive box) =>
    match boxNumber numBoxes box with
    | .ok box => [.asked thread box]
    | .error _ => []
  | .go _ =>
    match phase with
    | .transmit parcel => [.passed thread parcel.toMail]
    | .unlock parcel => [.sent thread parcel.toMail]
    | .take box => (office.boxes box).head?.toList.map (.taken thread box)
    | .copy box mail => mail.toList.map (.returned thread box)
    | _ => []
  | .enter (.postalDelivery _) | .device _ | .other _ => []

/-- What can be seen of a step of a machine. -/
def observe (netAddr : NetworkAddress) (before : Machine numBoxes)
    (act : Act Entry Chance Signal) : List (Event numBoxes) :=
  match before.kernel.currentThread with
  | none => []
  | some thread => seen netAddr thread (before.phase thread) before.data act

/-- All machines, by their addresses. -/
abbrev Machines (numBoxes : Nat) := NetworkAddress → Machine numBoxes

/-- What can happen next. -/
inductive Move where
  /-- Something happens on a machine. -/
  | machine (address : NetworkAddress) (act : Act Entry Chance Signal)
  /-- The host takes the oldest packet that a machine has sent to its socket. -/
  | carry (address : NetworkAddress)
  deriving DecidableEq, Repr

/-- A machine with other packets that are to be carried. -/
def withOutgoing (client : Machine numBoxes)
    (outgoing : List (NetworkAddress × List Byte)) : Machine numBoxes :=
  { client with data := { client.data with network := { client.data.network with outgoing } } }

/-- A machine with one more packet at its socket. -/
def withPacket (client : Machine numBoxes) (packet : List Byte) :
    Machine numBoxes :=
  { client with data := { client.data with network := { client.data.network with
      socket := client.data.network.socket ++ [packet] } } }

variable (names : NetworkAddress → Names numBoxes) (worker : NetworkAddress → Thread)

/-- One step of all machines together. -/
def step (machines : Machines numBoxes) : Move → Except Fault (Machines numBoxes)
  | .machine address act =>
    match (postOffice (names address) address (worker address)).step (machines address) act with
    | .ok client => .ok (Function.update machines address client)
    | .error fault => .error fault
  | .carry address =>
    match (machines address).data.network.outgoing with
    | [] => .error .disabled
    | (destination, packet) :: rest =>
      let machines := Function.update machines address (withOutgoing (machines address) rest)
      .ok (Function.update machines destination (withPacket (machines destination) packet))

/-- What can be seen of it, and where. -/
def witnessed (before : Machines numBoxes) (move : Move) (_ : Machines numBoxes) :
    List (NetworkAddress × Event numBoxes) :=
  match move with
  | .machine address act => (observe address (before address) act).map (Prod.mk address)
  | .carry _ => []

/-- All post offices have just been made. -/
def Opened (main : NetworkAddress → Thread) (machines : Machines numBoxes) : Prop :=
  ∀ address, Init (names address) address (worker address) (main address) (machines address)

/-- Is this mail for that box? -/
def isFor (box : Fin numBoxes) (mail : Mail) : Bool := mail.mailHdr.to_.toInt = box

/-- Is it from this machine? -/
def isFrom (sender : NetworkAddress) (mail : Mail) : Bool := mail.pktHdr.from_ = sender

/-- A message with which `Send` was called for a box of a machine. -/
def calledOf (receiver : NetworkAddress) (box : Fin numBoxes) : Event numBoxes → Option Mail
  | .called _ mail => if mail.pktHdr.to_ = receiver ∧ isFor box mail then some mail else none
  | _ => none

/-- A message that `Send` has passed to the network for a box of a machine. -/
def passedOf (receiver : NetworkAddress) (box : Fin numBoxes) : Event numBoxes → Option Mail
  | .passed _ mail => if mail.pktHdr.to_ = receiver ∧ isFor box mail then some mail else none
  | _ => none

/-- A message that `Receive` has taken from a box. -/
def takenOf (box : Fin numBoxes) : Event numBoxes → Option Mail
  | .taken _ other mail => if other = box then some mail else none
  | _ => none

/-- A message that `Receive` has returned from a box. -/
def returnedOf (box : Fin numBoxes) : Event numBoxes → Option Mail
  | .returned _ other mail => if other = box then some mail else none
  | _ => none

/-- The messages of some kind in the history of a machine, oldest first. -/
def messages (address : NetworkAddress) (kind : Event numBoxes → Option Mail)
    (history : List (NetworkAddress × Event numBoxes)) : List Mail :=
  history.filterMap fun item => if item.1 = address then kind item.2 else none

/-- The last thing that each thread of each machine has done with mail. -/
abbrev Last (numBoxes : Nat) := NetworkAddress → Thread → Option (Event numBoxes)

/-- The thread that does it. -/
def Event.thread : Event numBoxes → Thread
  | .called thread _ | .passed thread _ | .sent thread _ => thread
  | .asked thread _ | .taken thread _ _ | .returned thread _ _ => thread

/-- A call has returned. -/
def Event.ends : Event numBoxes → Bool
  | .sent _ _ | .returned _ _ _ => true
  | .called _ _ | .passed _ _ | .asked _ _ | .taken _ _ _ => false

/-- The steps of a call come one after the other, and are about one message. -/
def Event.follows (last : Option (Event numBoxes)) : Event numBoxes → Prop
  | .called _ _ | .asked _ _ => ∀ event ∈ last, event.ends = true
  | .passed thread mail => last = some (.called thread mail)
  | .sent thread mail => last = some (.passed thread mail)
  | .taken thread box _ => last = some (.asked thread box)
  | .returned thread box mail => last = some (.taken thread box mail)

/-- Remember what a thread of a machine has done. -/
def note (last : Last numBoxes) (item : NetworkAddress × Event numBoxes) : Last numBoxes :=
  Function.update last item.1 (Function.update (last item.1) item.2.thread (some item.2))

/-- What a thread of a machine does continues what it has done. -/
def Continues (last : Last numBoxes) (item : NetworkAddress × Event numBoxes) : Prop :=
  item.2.follows (last item.1 item.2.thread)

end PostOffice

end Nachos
