import Nachos.Network.Asserts

/-! While the network loses no packet, every message is in a box, on its way to one, or taken. -/

namespace Nachos.PostOffice

open Threads

variable {numBoxes : Nat} {netAddr : NetworkAddress}

/-- A move in which the network does not lose the packet that it is given. -/
def Move.keeps : Move → Bool
  | .machine _ (.go chance) => !chance.lost
  | _ => true

/-- A packet that is not lost is on its way. -/
theorem outgoing_of_kept {before after : Network} {hdr : PacketHeader} {data : List Byte}
    {chance : Chance} (kept : chance.lost = false)
    (accepted : before.send netAddr hdr data chance = .ok after) :
    after.outgoing = before.outgoing ++ [(hdr.to_, PacketHeader.codec.encode hdr ++
      data.take hdr.length.toNat ++ chance.rest)] := by
  unfold Network.send at accepted
  rw [kept] at accepted
  split at accepted
  · simp only [Bool.false_eq_true, if_false] at accepted
    obtain ⟨-, fits⟩ := of_ite accepted
    obtain ⟨-, done⟩ := of_ite fits
    obtain rfl := Except.ok.inj done
    rfl
  · cases accepted

section Machine

variable {names : Names numBoxes} {worker thread : Thread} {client next : Machine numBoxes}
  {act : Act Entry Chance Signal} {phase : Phase numBoxes} {office : PostOffice numBoxes}
  {box : Fin numBoxes} {receiver address : NetworkAddress}

/-- What a statement passes to the network is behind all that is on its way. -/
theorem Does.leaving_eq {outcome : Outcome (PostOffice numBoxes) (Phase numBoxes)}
    (does : Does names netAddr worker thread act phase office outcome)
    (kept : (Move.machine address act).keeps = true) :
    PostOffice.leaving receiver box outcome.data.network =
      PostOffice.leaving receiver box office.network ++
        (seen netAddr thread phase office act).filterMap (passedOf receiver box) := by
  cases does with
  | @transmit _ parcel chance network accepted =>
    have more := outgoing_of_kept (by simpa [Move.keeps] using kept) accepted
    rw [parcel.copied] at more
    rw [PostOffice.leaving, more]
    by_cases there : parcel.pktHdr.to_ = receiver
    · by_cases wanted : isFor box parcel.toMail <;>
        simp [PostOffice.leaving, seen, passedOf, there, wanted, Mail.opened_packet]
    · simp [PostOffice.leaving, seen, passedOf, there]
  | fetch received =>
    obtain ⟨rfl, -⟩ := Prod.mk.inj received
    exact (List.append_nil _).symm
  | @take _ other =>
    -- Taking a message from a box is seen, but passes nothing on.
    have nothing : ((office.boxes other).head?.toList.map (Event.taken thread other)).filterMap
        (passedOf receiver box) = [] := by
      cases (office.boxes other).head? <;> rfl
    simp only [seen, nothing, List.append_nil]
  | @receive _ number other found =>
    simp [seen, found, passedOf]
  | _ => exact (List.append_nil _).symm

/-- Every step of a machine passes on what is seen to be passed on. -/
theorem leaving_step (genuine : Genuine numBoxes netAddr client.data.network)
    (moves : Moves (postOffice names netAddr worker) (rests names) client act next)
    (kept : (Move.machine address act).keeps = true) :
    leaving receiver box next.data.network = leaving receiver box client.data.network ++
      (observe netAddr client act).filterMap (passedOf receiver box) := by
  cases moves with
  | statement current outside did silent =>
    rw [observe, current]
    exact (does_of_statement did).leaving_eq kept
  | call current outside did calls performed =>
    rw [observe, current]
    exact (does_of_statement did).leaving_eq kept
  | handle settled handled =>
    rw [observe_of_quiet fun _ _ _ => rfl]
    rw [(arriving_interrupt genuine handled (client.phase worker)).2]
    exact (List.append_nil _).symm
  | raise settled handled =>
    rw [observe_of_quiet fun _ _ _ => rfl]
    rw [(arriving_interrupt genuine handled (client.phase worker)).2]
    exact (List.append_nil _).symm
  | resume | other =>
    rw [observe_of_quiet fun _ _ _ => rfl]
    exact (List.append_nil _).symm

end Machine

variable {names : NetworkAddress → Names numBoxes} {worker main : NetworkAddress → Thread}
  {machines : Machines numBoxes} {history : List (NetworkAddress × Event numBoxes)}
  {address : NetworkAddress} {act : Act Entry Chance Signal}

/-- Every message from one machine for a box of another is where it should be, in order. -/
def Conserved (worker : NetworkAddress → Thread) (machines : Machines numBoxes)
    (history : List (NetworkAddress × Event numBoxes)) : Prop :=
  ∀ sender receiver (box : Fin numBoxes),
    (messages receiver (takenOf box) history ++ arriving box (machines receiver).data
        ((machines receiver).phase (worker receiver))).filter (isFrom sender) ++
      leaving receiver box (machines sender).data.network =
    messages sender (passedOf receiver box) history

/-- New post offices have passed on nothing. -/
theorem conserved_of_opened (opened : Opened names worker main machines) :
    Conserved worker machines [] := by
  intro sender receiver box
  have init := opened receiver
  simp [messages, arriving, init.boxes, init.idle, inHand, buffered_of_empty init.inHdr,
    init.socket, leaving, (opened sender).outgoing]

/-- A step of one machine loses no message. -/
theorem Conserved.machine {client : Machine numBoxes} (conserved : Conserved worker machines history)
    (delivering : Delivering names worker machines history)
    (kept : (Move.machine address act).keeps = true)
    (stepped : (postOffice (names address) address (worker address)).step (machines address) act =
      .ok client) :
    Conserved worker (Function.update machines address client)
      (history ++ (observe address (machines address) act).map (Prod.mk address)) := by
  intro sender receiver box
  have inOrder := delivering.inOrder address
  have genuine := delivering.genuine address
  have moves := inOrder.served.positioned.moves disciplined stepped
  have hauls := hauls_step inOrder genuine moves
  -- What is taken was in front of all that is to come.
  have arrives : (if address = receiver then
      (observe address (machines address) act).filterMap (takenOf box) else []) ++
        arriving box (Function.update machines address client receiver).data
          ((Function.update machines address client receiver).phase (worker receiver)) =
      arriving box (machines receiver).data ((machines receiver).phase (worker receiver)) := by
    by_cases here : address = receiver
    · subst here
      simpa using hauls.arriving box
    · simp [here, Function.update_of_ne (Ne.symm here)]
  -- What is passed on comes behind all that is on its way.
  have leaves : leaving receiver box (Function.update machines address client sender).data.network =
      leaving receiver box (machines sender).data.network ++ if address = sender then
        (observe address (machines address) act).filterMap (passedOf receiver box) else [] := by
    by_cases here : address = sender
    · subst here
      simpa using leaving_step genuine moves kept
    · simp [here, Function.update_of_ne (Ne.symm here)]
  rw [messages_append, messages_append, List.append_assoc, arrives, leaves, ← List.append_assoc,
    conserved sender receiver box]

/-- The host loses no packet between two machines. -/
theorem Conserved.carry {destination : NetworkAddress} {packet : List Byte}
    {rest : List (NetworkAddress × List Byte)} (conserved : Conserved worker machines history)
    (genuine : Genuine numBoxes address (machines address).data.network)
    (waiting : (machines address).data.network.outgoing = (destination, packet) :: rest) :
    Conserved worker (carried machines address destination packet rest) history := by
  intro sender receiver box
  obtain ⟨parcel, others, shape, mine⟩ := genuine.outgoing (destination, packet) (by simp [waiting])
  obtain ⟨rfl, rfl⟩ := Prod.mk.inj shape
  have before := conserved sender receiver box
  rw [leaving_carried waiting, Mail.opened_packet] at before
  rw [arriving_carried, Mail.opened_packet, ← List.append_assoc, List.filter_append,
    List.append_assoc, ← before]
  congr 2
  -- The packet is from the machine on which the host has found it.
  by_cases there : receiver = parcel.pktHdr.to_
  · by_cases here : sender = address
    · have own : isFrom sender parcel.toMail = true := by simpa [isFrom, here] using mine
      by_cases wanted : isFor box parcel.toMail <;> simp [there, ← here, wanted, own]
    · have foreign : isFrom sender parcel.toMail = false := by
        simpa [isFrom, mine] using Ne.symm here
      by_cases wanted : isFor box parcel.toMail <;> simp [there, here, wanted, foreign]
  · simp [there]

/--
No message is lost by the post offices and the machines below them.

While the network itself loses no packet, the messages that one machine has passed on for a box of
another one are, in this order: those that were taken from the box, those that are in it or on the
machine on their way to it, and those that the host has yet to carry there.
-/
theorem mail_conserved (traced : Runs.Traced (step names worker) (Opened names worker main)
    (fun _ move => move.keeps = true) witnessed machines history)
    (sender receiver : NetworkAddress) (box : Fin numBoxes) :
    (messages receiver (takenOf box) history ++ arriving box (machines receiver).data
        ((machines receiver).phase (worker receiver))).filter (isFrom sender) ++
      leaving receiver box (machines sender).data.network =
    messages sender (passedOf receiver box) history := by
  have inv := traced.invariant (fun machines history => Delivering names worker machines history ∧
    Conserved worker machines history) ?_ ?_
  · exact inv.2 sender receiver box
  · exact fun machines opened => ⟨delivering_of_opened opened, conserved_of_opened opened⟩
  · intro machines move after history both kept stepped
    obtain ⟨delivering, conserved⟩ := both
    refine ⟨delivering.step stepped, ?_⟩
    cases move with
    | machine address act =>
      simp only [PostOffice.step] at stepped
      split at stepped
      · rename_i client moved
        obtain rfl := Except.ok.inj stepped
        exact conserved.machine delivering kept moved
      · cases stepped
    | carry address =>
      simp only [PostOffice.step] at stepped
      split at stepped
      · cases stepped
      · rename_i destination packet rest waiting
        obtain rfl := Except.ok.inj stepped
        rw [witnessed, List.append_nil]
        exact conserved.carry (delivering.genuine address) waiting

/-- Two packets are carried, of which the worker has put one into the box. -/
def halfWay : List Move :=
  overtake.map (.machine 0) ++ [.carry 0, .carry 0] ++ (collect.take 12).map (.machine 1)

/-- All three messages are somewhere, one of them on the machine that has sent it. -/
theorem mail_conserved_halfWay : ∃ machines : Machines 1, ∃ history,
    messages 0 (passedOf 1 (0 : Fin 1)) history = [byteMail 0, byteMail 2, byteMail 1] ∧
    (machines 1).data.boxes 0 = [byteMail 0] ∧
    (messages 1 (takenOf (0 : Fin 1)) history ++ arriving (0 : Fin 1) (machines 1).data
        ((machines 1).phase 1)).filter (isFrom 0) ++
      leaving 1 (0 : Fin 1) (machines 0).data.network = [byteMail 0, byteMail 2, byteMail 1] := by
  obtain ⟨machines, ran, boxed⟩ := Runs.exists_of_runsTo
    (show Runs.runsTo (step (fun _ => oneBox) fun _ => 1) firstMachines halfWay
      (fun machines => (machines 1).data.boxes 0 = [byteMail 0]) = true by decide +kernel)
  have start : Runs.Traced (step (fun _ => oneBox) fun _ => 1)
      (Opened (fun _ => oneBox) (fun _ => 1) fun _ => 0) (fun _ move => move.keeps = true) witnessed
      firstMachines [] := .start fun address => init_firstOffice address
  have kept : ∀ move ∈ halfWay, move.keeps = true := by decide +kernel
  have traced := start.extend (Runs.guarded_of_forall (fun _ => kept) firstMachines) ran
  have passed : messages 0 (passedOf 1 (0 : Fin 1)) ([] ++ Runs.record
      (step (fun _ => oneBox) fun _ => 1) witnessed firstMachines halfWay) =
        [byteMail 0, byteMail 2, byteMail 1] := by decide +kernel
  exact ⟨machines, _, passed, of_decide_eq_true boxed, passed ▸ mail_conserved traced 0 1 0⟩

end Nachos.PostOffice
