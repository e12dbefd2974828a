import Nachos.Network.PostOfficeLaws

/-! Packets carry mail as it was sent, and a step of a machine lets no mail overtake other mail. -/

namespace Nachos

/-- What a parcel looks like on the wire, in front of the bytes that nobody has initialised. -/
def Parcel.packet {numBoxes : Nat} (parcel : Parcel numBoxes) : List Byte :=
  PacketHeader.codec.encode parcel.pktHdr ++ parcel.buffer

/-- The mail in a packet. -/
def Mail.opened (packet : List Byte) : Mail :=
  .unpack (PacketHeader.codec.decode (packet.take PacketHeader.codec.size))
    (packet.drop PacketHeader.codec.size)

variable {numBoxes : Nat} {parcel : Parcel numBoxes} {rest : List Byte}

/-- The packet header counts the bytes behind it. -/
theorem Parcel.length_buffer (parcel : Parcel numBoxes) :
    parcel.buffer.length = parcel.pktHdr.length.toNat := by
  have fits := parcel.fits
  have sizes : maxMailSize = 40 ∧ MailHeader.codec.size = 12 := ⟨rfl, rfl⟩
  rw [sizes.1] at fits
  rw [parcel.whole, Parcel.buffer, List.length_append, Codec.length_encode, parcel.filled, sizes.2]
  simp only [BitVec.toNat_add, BitVec.toNat_ofNat]
  omega

/-- It is never zero, for there is a mail header. -/
theorem Parcel.length_ne_zero (parcel : Parcel numBoxes) : parcel.pktHdr.length ≠ 0 := by
  intro empty
  have length := parcel.length_buffer
  have size : MailHeader.codec.size = 12 := rfl
  simp [empty, Parcel.buffer, size] at length

/-- A parcel fits into a packet. -/
theorem Parcel.length_le (parcel : Parcel numBoxes) :
    parcel.pktHdr.length.toNat ≤ maxPacketSize := by
  have fits := parcel.fits
  have sizes : maxMailSize = 40 ∧ MailHeader.codec.size = 12 ∧ maxPacketSize = 52 := ⟨rfl, rfl, rfl⟩
  rw [sizes.1] at fits
  rw [← parcel.length_buffer, Parcel.buffer, List.length_append, Codec.length_encode, parcel.filled,
    sizes.2.1, sizes.2.2]
  omega

/-- The mail is unpacked as it was packed, whatever is behind it. -/
theorem Mail.unpack_buffer : Mail.unpack parcel.pktHdr (parcel.buffer ++ rest) = parcel.toMail := by
  have header : (parcel.buffer ++ rest).take MailHeader.codec.size =
      MailHeader.codec.encode parcel.mailHdr := by
    rw [Parcel.buffer, List.append_assoc, List.take_left' (Codec.length_encode ..)]
  have data : (parcel.buffer ++ rest).drop MailHeader.codec.size = parcel.data ++ rest := by
    rw [Parcel.buffer, List.append_assoc, List.drop_left' (Codec.length_encode ..)]
  rw [Mail.unpack, header, data, Codec.decode_encode, ← parcel.filled, List.take_left]

/-- The header of a packet can be read back. -/
theorem Parcel.decode_packet : PacketHeader.codec.decode
    ((parcel.packet ++ rest).take PacketHeader.codec.size) = parcel.pktHdr := by
  rw [Parcel.packet, List.append_assoc, List.take_left' (Codec.length_encode ..),
    Codec.decode_encode]

/-- Behind it is the buffer of the parcel. -/
theorem Parcel.drop_packet :
    (parcel.packet ++ rest).drop PacketHeader.codec.size = parcel.buffer ++ rest := by
  rw [Parcel.packet, List.append_assoc, List.drop_left' (Codec.length_encode ..)]

/-- So the mail in a packet is the one that was sent. -/
theorem Mail.opened_packet : Mail.opened (parcel.packet ++ rest) = parcel.toMail := by
  rw [Mail.opened, Parcel.decode_packet, Parcel.drop_packet, Mail.unpack_buffer]

/-- The bytes that `Network::Send` copies from a parcel are all of it. -/
theorem Parcel.copied (parcel : Parcel numBoxes) (rest : List Byte) :
    PacketHeader.codec.encode parcel.pktHdr ++ parcel.buffer.take parcel.pktHdr.length.toNat ++
      rest = parcel.packet ++ rest := by
  rw [← parcel.length_buffer, List.take_length, Parcel.packet]

/-- Some `PostOffice::Send` has packed it. -/
def Sealed (numBoxes : Nat) (packet : List Byte) : Prop :=
  ∃ (parcel : Parcel numBoxes) (rest : List Byte), packet = parcel.packet ++ rest

/-- All packets of a machine have been packed by senders, and those to be carried by itself. -/
structure Genuine (numBoxes : Nat) (netAddr : NetworkAddress) (network : Network) : Prop where
  socket : ∀ packet ∈ network.socket, Sealed numBoxes packet
  inbox : network.inHdr.length ≠ 0 →
    Sealed numBoxes (PacketHeader.codec.encode network.inHdr ++ network.inbox)
  outgoing : ∀ item ∈ network.outgoing, ∃ (parcel : Parcel numBoxes) (rest : List Byte),
    item = (parcel.pktHdr.to_, parcel.packet ++ rest) ∧ parcel.pktHdr.from_ = netAddr

variable {netAddr : NetworkAddress} {network before after : Network} {packet : List Byte}

/-- A packet from a sender says that it is not empty. -/
theorem Sealed.length_ne_zero (sealed : Sealed numBoxes packet) :
    (PacketHeader.codec.decode (packet.take PacketHeader.codec.size)).length ≠ 0 := by
  obtain ⟨parcel, rest, rfl⟩ := sealed
  rw [Parcel.decode_packet]
  exact parcel.length_ne_zero

/-- The device takes such a packet over as it is. -/
theorem Sealed.inbox (sealed : Sealed numBoxes packet) (inbox : List Byte) :
    let inHdr := PacketHeader.codec.decode (packet.take PacketHeader.codec.size)
    let buffered := PacketHeader.codec.encode inHdr ++
      bcopy (packet.drop PacketHeader.codec.size) inbox inHdr.length.toNat
    Sealed numBoxes buffered ∧ Mail.opened buffered = Mail.opened packet := by
  obtain ⟨parcel, rest, rfl⟩ := sealed
  intro inHdr buffered
  have copied : buffered = parcel.packet ++ inbox.drop inHdr.length.toNat := by
    simp only [buffered, inHdr]
    rw [Parcel.decode_packet, Parcel.drop_packet, bcopy, ← parcel.length_buffer, List.take_left,
      Parcel.packet, List.append_assoc]
  rw [copied, Mail.opened_packet, Mail.opened_packet]
  exact ⟨⟨parcel, _, rfl⟩, rfl⟩


namespace PostOffice

open Threads

variable {names : Names numBoxes} {worker main thread : Thread}
  {client next : Machine numBoxes} {act : Act Entry Chance Signal}
  {phase : Phase numBoxes} {office : PostOffice numBoxes} {box : Fin numBoxes}
  {sender receiver : NetworkAddress}

/-- A statement makes packets of parcels only. -/
theorem Does.genuine {outcome : Outcome (PostOffice numBoxes) (Phase numBoxes)}
    (does : Does names netAddr worker thread act phase office outcome)
    (genuine : Genuine numBoxes netAddr office.network) :
    Genuine numBoxes netAddr outcome.data.network := by
  cases does with
  | @transmit _ parcel chance network accepted =>
    obtain ⟨mine, -, -, inHdr, inbox, socket, outgoing⟩ := send_eq_ok accepted
    refine ⟨?_, ?_, fun item member => ?_⟩
    · rw [socket]
      exact genuine.socket
    · rw [inHdr, inbox]
      exact genuine.inbox
    · rcases outgoing with same | more
      · exact genuine.outgoing item (same ▸ member)
      · -- The new packet is the parcel itself, whose header counts its bytes.
        rw [more, List.mem_append, List.mem_singleton] at member
        rcases member with old | rfl
        · exact genuine.outgoing item old
        · exact ⟨parcel, chance.rest, by rw [parcel.copied], mine⟩
  | fetch received =>
    obtain ⟨rfl, -⟩ := Prod.mk.inj received
    exact ⟨genuine.socket, fun full => absurd rfl full, genuine.outgoing⟩
  | _ => exact genuine

/-- Interrupts do not make packets. -/
theorem genuine_interrupt {signal : Signal} {after : PostOffice numBoxes} {raised : Option Nat}
    (genuine : Genuine numBoxes netAddr office.network)
    (handled : interrupt names netAddr signal office = .ok (after, raised)) :
    Genuine numBoxes netAddr after.network := by
  cases handles_of_interrupt handled with
  | idle => exact genuine
  | @poll packet rest empty waiting =>
    have sealed : ∀ other ∈ packet :: rest, Sealed numBoxes other := waiting ▸ genuine.socket
    exact ⟨fun other member => sealed other (List.mem_cons_of_mem _ member),
      fun _ => ((sealed packet List.mem_cons_self).inbox _).1, genuine.outgoing⟩
  | sendDone => exact ⟨genuine.socket, genuine.inbox, genuine.outgoing⟩

/-- The mail that the postal worker is about to put into a box. -/
def inHand (box : Fin numBoxes) : Phase numBoxes → List Mail
  | .append other mail _ => if other = box then [mail] else []
  | _ => []

/-- The mail in the buffer of the device. -/
def buffered (network : Network) : List Mail :=
  if network.inHdr.length = 0 then []
  else [.opened (PacketHeader.codec.encode network.inHdr ++ network.inbox)]

/-- A header of length zero says that the buffer is empty. -/
theorem buffered_of_empty (empty : network.inHdr.length = 0) : buffered network = [] := if_pos empty

/-- Any other one says that it is full. -/
theorem buffered_of_full (full : network.inHdr.length ≠ 0) :
    buffered network = [.opened (PacketHeader.codec.encode network.inHdr ++ network.inbox)] :=
  if_neg full

/-- The mail on a machine that has yet to be taken from a box, oldest first. -/
def arriving (box : Fin numBoxes) (office : PostOffice numBoxes) (working : Phase numBoxes) :
    List Mail :=
  office.boxes box ++ inHand box working ++
    (buffered office.network ++ office.network.socket.map Mail.opened).filter (isFor box)

/-- The mail for a box of another machine that has yet to be carried to it, oldest first. -/
def leaving (receiver : NetworkAddress) (box : Fin numBoxes) (network : Network) : List Mail :=
  ((network.outgoing.filter fun item => item.1 = receiver).map fun item => .opened item.2).filter
    (isFor box)

/-- The mail that the postal worker unpacks is the one in the buffer of the device. -/
theorem unpack_receive {buffer : List Byte}
    (sealed : Sealed numBoxes (PacketHeader.codec.encode network.inHdr ++ network.inbox)) :
    Mail.unpack network.inHdr (bcopy network.inbox buffer network.inHdr.length.toNat) =
      .opened (PacketHeader.codec.encode network.inHdr ++ network.inbox) := by
  obtain ⟨parcel, rest, shape⟩ := sealed
  -- The header and the bytes behind it can be told apart, since a header has a fixed size.
  obtain ⟨header, inbox⟩ := List.append_inj (shape.trans (List.append_assoc ..))
    ((Codec.length_encode ..).trans (Codec.length_encode ..).symm)
  have inHdr : network.inHdr = parcel.pktHdr := by
    rw [← Codec.decode_encode PacketHeader.codec network.inHdr, header, Codec.decode_encode]
  rw [shape, Mail.opened_packet, inHdr, inbox, bcopy, ← parcel.length_buffer, List.take_left,
    Mail.unpack_buffer]

/-- What the worker has in its hand changes only where it puts something into it. -/
theorem inHand_eq {working later before after : Phase numBoxes}
    (phases : working = before ∧ later = after ∨ works before = false ∧ later = working)
    (same : inHand box after = inHand box before) : inHand box later = inHand box working := by
  rcases phases with ⟨rfl, rfl⟩ | ⟨-, rfl⟩
  · exact same
  · rfl

/-- What a statement takes from a box was in front of all that is to come. -/
theorem Does.arriving {outcome : Outcome (PostOffice numBoxes) (Phase numBoxes)}
    {working later : Phase numBoxes}
    (does : Does names netAddr worker thread act phase office outcome)
    (genuine : Genuine numBoxes netAddr office.network)
    (phases : working = phase ∧ later = outcome.phase ∨ works phase = false ∧ later = working)
    (stocked : awaits phase = true → office.network.inHdr.length ≠ 0) :
    (seen netAddr thread phase office act).filterMap (takenOf box) ++
      PostOffice.arriving box outcome.data later = PostOffice.arriving box office working := by
  cases does with
  -- Only the postal worker fetches packets and puts them into boxes.
  | @fetch _ buffer filled _ network pktHdr chosen received found =>
    obtain ⟨rfl, rfl⟩ := phases.resolve_right fun other => by cases other.1
    have full := stocked rfl
    simp only [Network.receive, if_pos full, Prod.mk.injEq] at received
    obtain ⟨rfl, rfl, rfl⟩ := received
    -- The mail in the buffer becomes the mail in the hand of the worker.
    rw [unpack_receive (genuine.inbox full)] at found ⊢
    have chosen_iff : isFor box (.opened (PacketHeader.codec.encode office.network.inHdr ++
        office.network.inbox)) = decide (chosen = box) := by
      rw [isFor, boxNumber_eq_ok found, decide_eq_decide, Nat.cast_inj, Fin.val_inj]
    rw [PostOffice.arriving, PostOffice.arriving, buffered_of_full full, buffered_of_empty rfl]
    by_cases same : chosen = box <;> simp [seen, inHand, chosen_iff, same]
  | @append _ other mail buffer =>
    obtain ⟨rfl, rfl⟩ := phases.resolve_right fun other => by cases other.1
    by_cases same : other = box
    · subst same
      simp [seen, PostOffice.arriving, inHand]
    · simp [seen, PostOffice.arriving, inHand, same, Function.update_of_ne (Ne.symm same)]
  | @take _ other =>
    have hand : inHand box later = inHand box working := inHand_eq phases rfl
    by_cases same : other = box
    · subst same
      cases list : office.boxes other <;> simp [seen, PostOffice.arriving, hand, list, takenOf]
    · cases list : office.boxes other <;> simp [seen, PostOffice.arriving, hand, list, takenOf,
        same, Function.update_of_ne (Ne.symm same)]
  | transmit accepted =>
    have hand : inHand box later = inHand box working := inHand_eq phases rfl
    obtain ⟨-, -, -, inHdr, inbox, socket, -⟩ := send_eq_ok accepted
    simp [seen, PostOffice.arriving, hand, takenOf, buffered, inHdr, inbox, socket]
  | receive found =>
    have hand : inHand box later = inHand box working := inHand_eq phases rfl
    simp [seen, found, takenOf, PostOffice.arriving, hand]
  | _ =>
    -- The others neither see nor move any mail that has arrived.
    have hand : inHand box later = inHand box working := inHand_eq phases rfl
    simp [seen, takenOf, PostOffice.arriving, hand]

/-- What a statement passes to the network is behind all that is on its way, unless it is lost. -/
theorem Does.leaving {outcome : Outcome (PostOffice numBoxes) (Phase numBoxes)}
    (does : Does names netAddr worker thread act phase office outcome) :
    List.Sublist (PostOffice.leaving receiver box outcome.data.network)
      (PostOffice.leaving receiver box office.network ++
        (seen netAddr thread phase office act).filterMap (passedOf receiver box)) := by
  cases does with
  | @transmit _ parcel chance network accepted =>
    obtain ⟨-, -, -, -, -, -, same | more⟩ := send_eq_ok accepted
    · rw [PostOffice.leaving, same]
      exact List.sublist_append_left _ _
    · rw [parcel.copied] at more
      rw [PostOffice.leaving, more]
      by_cases there : parcel.pktHdr.to_ = receiver
      · by_cases wanted : isFor box parcel.toMail <;>
          simp [PostOffice.leaving, seen, passedOf, there, wanted, Mail.opened_packet]
      · simp [PostOffice.leaving, seen, passedOf, there]
  | fetch received =>
    obtain ⟨rfl, -⟩ := Prod.mk.inj received
    exact List.sublist_append_left _ _
  | _ => exact List.sublist_append_left _ _

/-- An interrupt takes no mail away, and lets none overtake another. -/
theorem arriving_interrupt {signal : Signal} {after : PostOffice numBoxes} {raised : Option Nat}
    (genuine : Genuine numBoxes netAddr office.network)
    (handled : interrupt names netAddr signal office = .ok (after, raised))
    (working : Phase numBoxes) :
    (∀ box, arriving box after working = arriving box office working) ∧
      ∀ receiver (box : Fin numBoxes),
        leaving receiver box after.network = leaving receiver box office.network := by
  cases handles_of_interrupt handled with
  | idle => exact ⟨fun _ => rfl, fun _ _ => rfl⟩
  | @poll packet rest empty waiting =>
    -- The oldest packet of the socket is the one in the buffer from now on.
    have sealed := genuine.socket packet (by simp [waiting])
    refine ⟨fun box => ?_, fun _ _ => rfl⟩
    rw [arriving, arriving, buffered_of_empty empty, buffered_of_full sealed.length_ne_zero, filled,
      (sealed.inbox office.network.inbox).2, waiting]
    rfl
  | sendDone => exact ⟨fun _ => rfl, fun _ _ => rfl⟩

/-- What a step of a machine does to the mail on it. -/
structure Hauls (netAddr : NetworkAddress) (worker : Thread)
    (client next : Machine numBoxes) (events : List (Event numBoxes)) :
    Prop where
  genuine : Genuine numBoxes netAddr next.data.network
  arriving : ∀ box, events.filterMap (takenOf box) ++
    PostOffice.arriving box next.data (next.phase worker) =
      PostOffice.arriving box client.data (client.phase worker)
  leaving : ∀ receiver box, List.Sublist (PostOffice.leaving receiver box next.data.network)
    (PostOffice.leaving receiver box client.data.network ++
      events.filterMap (passedOf receiver box))

/-- A statement hauls the mail, whatever happens to the kernel meanwhile. -/
theorem Does.hauls {outcome : Outcome (PostOffice numBoxes) (Phase numBoxes)} {kernel : Kernel}
    (does : Does names netAddr worker thread act (client.phase thread) client.data outcome)
    (inOrder : InOrder names netAddr worker client)
    (genuine : Genuine numBoxes netAddr client.data.network)
    (outside : client.kernel.place thread = .outside) :
    Hauls netAddr worker client
      ⟨kernel, outcome.data, Function.update client.phase thread outcome.phase⟩
      (seen netAddr thread (client.phase thread) client.data act) where
  genuine := does.genuine genuine
  arriving box := by
    refine does.arriving genuine ?_ fun waits => ?_
    · by_cases same : thread = worker
      · exact .inl ⟨by rw [same], same ▸ Function.update_self ..⟩
      · refine .inr ⟨?_, Function.update_of_ne (Ne.symm same) _ _⟩
        rw [← Bool.not_eq_true]
        exact fun labours => same (inOrder.supplied.alone thread labours)
    · exact inOrder.full waits outside
  leaving receiver box := does.leaving

/-- So does the handler of an interrupt. -/
theorem hauls_interrupt {signal : Signal} {data : PostOffice numBoxes} {raised : Option Nat}
    {kernel : Kernel} (genuine : Genuine numBoxes netAddr client.data.network)
    (handled : interrupt names netAddr signal client.data = .ok (data, raised)) :
    Hauls netAddr worker client ⟨kernel, data, client.phase⟩ [] where
  genuine := genuine_interrupt genuine handled
  arriving := (arriving_interrupt genuine handled (client.phase worker)).1
  leaving receiver box := by
    rw [(arriving_interrupt genuine handled (client.phase worker)).2]
    exact List.sublist_append_left _ _

/-- Nothing is seen of other steps. -/
theorem observe_of_quiet (quiet : ∀ thread (phase : Phase numBoxes) office,
    seen netAddr thread phase office act = []) :
    observe netAddr client act = [] := by
  unfold observe
  split
  · rfl
  · exact quiet _ _ _

/-- Every step of a machine hauls its mail. -/
theorem hauls_step (inOrder : InOrder names netAddr worker client)
    (genuine : Genuine numBoxes netAddr client.data.network)
    (moves : Moves (postOffice names netAddr worker) (rests names) client act next) :
    Hauls netAddr worker client next (observe netAddr client act) := by
  cases moves with
  | statement current outside did silent =>
    rw [observe, current]
    exact (does_of_statement did).hauls inOrder genuine outside
  | call current outside did calls performed =>
    rw [observe, current]
    exact (does_of_statement did).hauls inOrder genuine outside
  | handle settled handled =>
    rw [observe_of_quiet fun _ _ _ => rfl]
    exact hauls_interrupt genuine handled
  | raise settled handled =>
    rw [observe_of_quiet fun _ _ _ => rfl]
    exact hauls_interrupt genuine handled
  -- The kernel goes on without touching the mail.
  | resume | other =>
    rw [observe_of_quiet fun _ _ _ => rfl]
    exact ⟨genuine, fun box => rfl, fun receiver box => List.sublist_append_left _ _⟩

end PostOffice

end Nachos
