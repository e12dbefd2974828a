import Nachos.Network.Packets

/-! The mail that threads take from a box was passed on for it, in that order and once each. -/

namespace Nachos.PostOffice

open Threads

variable {numBoxes : Nat} {netAddr : NetworkAddress} {names : Names numBoxes}
  {worker thread : Thread} {client next : Machine numBoxes}
  {act : Act Entry Chance Signal} {phase : Phase numBoxes} {office : PostOffice numBoxes}
  {box : Fin numBoxes} {packet : List Byte}

/-- What a thread has done last in each phase. -/
def Phase.follows (thread : Thread) (last : Option (Event numBoxes)) : Phase numBoxes → Prop
  | .transmit parcel => last = some (.called thread parcel.toMail)
  | .wait parcel | .unlock parcel => last = some (.passed thread parcel.toMail)
  | .check box | .take box | .give box none | .copy box none => last = some (.asked thread box)
  | .give box (some mail) | .copy box (some mail) => last = some (.taken thread box mail)
  -- The postal worker has not done anything with mail in this sense.
  | .idle | .listen _ | .fetch _ | .append _ _ _ | .signal _ _ | .release _ _ =>
    ∀ event ∈ last, event.ends = true

/-- What is seen of a statement continues what its thread has done. -/
theorem Does.follows {outcome : Outcome (PostOffice numBoxes) (Phase numBoxes)}
    {last : Option (Event numBoxes)}
    (does : Does names netAddr worker thread act phase office outcome)
    (before : phase.follows thread last) :
    seen netAddr thread phase office act = [] ∧ outcome.phase.follows thread last ∨
      ∃ event, seen netAddr thread phase office act = [event] ∧ event.thread = thread ∧
        event.follows last ∧ outcome.phase.follows thread (some event) := by
  cases does with
  | send packed =>
    exact .inr ⟨_, rfl, rfl, before, by rw [Phase.follows, pack_eq_ok packed]⟩
  | @receive _ number box found =>
    exact .inr ⟨.asked thread box, by rw [seen, found], rfl, before, rfl⟩
  | transmit accepted => exact .inr ⟨_, rfl, rfl, before, rfl⟩
  | unlock => exact .inr ⟨_, rfl, rfl, before, by simp [Phase.follows, Event.ends]⟩
  | @take _ box =>
    cases list : office.boxes box with
    | nil =>
      exact .inl ⟨by simp [seen, list], before⟩
    | cons mail others =>
      exact .inr ⟨.taken thread box mail, by simp [seen, list], rfl, before, rfl⟩
  | @give _ box mail =>
    cases mail with
    | none => exact .inl ⟨rfl, before⟩
    | some mail => exact .inl ⟨rfl, before⟩
  | copy => exact .inr ⟨_, rfl, rfl, before, by simp [Phase.follows, Event.ends]⟩
  | _ => exact .inl ⟨rfl, before⟩

/-- What is seen of a step of a machine continues what its threads have done. -/
structure Told (address : NetworkAddress) (phases : Thread → Phase numBoxes) (last : Last numBoxes)
    (events : List (Event numBoxes)) : Prop where
  accepted : Runs.Accepts note Continues last (events.map (Prod.mk address))
  phases : ∀ thread, (phases thread).follows thread
    ((events.map (Prod.mk address)).foldl note last address thread)
  others : ∀ other, other ≠ address →
    (events.map (Prod.mk address)).foldl note last other = last other

variable {address : NetworkAddress} {last : Last numBoxes}

/-- Where nothing is seen, the threads are where they were. -/
theorem told_nil {phases : Thread → Phase numBoxes}
    (before : ∀ thread, (phases thread).follows thread (last address thread)) :
    Told address phases last [] :=
  ⟨trivial, before, fun _ _ => rfl⟩

/-- A statement is told as it is. -/
theorem Does.told {outcome : Outcome (PostOffice numBoxes) (Phase numBoxes)}
    (does : Does names netAddr worker thread act (client.phase thread) client.data outcome)
    (before : ∀ thread, (client.phase thread).follows thread (last address thread)) :
    Told address (Function.update client.phase thread outcome.phase) last
      (seen netAddr thread (client.phase thread) client.data act) := by
  rcases does.follows (before thread) with ⟨nothing, later⟩ | ⟨event, one, mine, follows, later⟩
  · rw [nothing]
    refine told_nil fun other => ?_
    by_cases same : other = thread
    · rw [same, Function.update_self]
      exact later
    · rw [Function.update_of_ne same]
      exact before other
  · rw [one]
    subst mine
    refine ⟨⟨follows, trivial⟩, fun other => ?_,
      fun other differ => Function.update_of_ne differ _ _⟩
    simp only [List.map_cons, List.map_nil, List.foldl_cons, List.foldl_nil, note,
      Function.update_self]
    by_cases same : other = event.thread
    · rw [same, Function.update_self, Function.update_self]
      exact later
    · rw [Function.update_of_ne same, Function.update_of_ne same]
      exact before other

/-- Every step of a machine is. -/
theorem told_step (before : ∀ thread, (client.phase thread).follows thread (last address thread))
    (moves : Moves (postOffice names netAddr worker) (rests names) client act next) :
    Told address next.phase last (observe netAddr client act) := by
  cases moves with
  | statement current outside did silent =>
    rw [observe, current]
    exact (does_of_statement did).told before
  | call current outside did calls performed =>
    rw [observe, current]
    exact (does_of_statement did).told before
  | handle | raise | resume | other =>
    rw [observe_of_quiet fun _ _ _ => rfl]
    exact told_nil before

variable {names : NetworkAddress → Names numBoxes} {worker main : NetworkAddress → Thread}
  {machines : Machines numBoxes} {history : List (NetworkAddress × Event numBoxes)}

/-- The machines are in order, and their mail is taken in the order in which it was passed on. -/
structure Delivering (names : NetworkAddress → Names numBoxes) (worker : NetworkAddress → Thread)
    (machines : Machines numBoxes) (history : List (NetworkAddress × Event numBoxes)) : Prop where
  apart : ∀ address, (names address).Apart
  inOrder : ∀ address, InOrder (names address) address (worker address) (machines address)
  genuine : ∀ address, Genuine numBoxes address (machines address).data.network
  mail : ∀ sender receiver (box : Fin numBoxes), List.Sublist
    ((messages receiver (takenOf box) history ++ arriving box (machines receiver).data
        ((machines receiver).phase (worker receiver))).filter (isFrom sender) ++
      leaving receiver box (machines sender).data.network)
    (messages sender (passedOf receiver box) history)
  accepted : Runs.Accepts note Continues (fun _ _ => none) history
  phases : ∀ address thread, ((machines address).phase thread).follows thread
    (history.foldl note (fun _ _ => none) address thread)

/-- New post offices are. -/
theorem delivering_of_opened (opened : Opened names worker main machines) :
    Delivering names worker machines [] where
  apart address := apart_of_made (opened address).made
  inOrder address := inOrder_of_init (opened address)
  genuine address := by
    refine ⟨?_, fun full => absurd (opened address).inHdr full, ?_⟩
    · simp [(opened address).socket]
    · simp [(opened address).outgoing]
  mail sender receiver box := by
    have init := opened receiver
    simp [messages, arriving, init.boxes, init.idle, inHand, buffered_of_empty init.inHdr,
      init.socket, leaving, (opened sender).outgoing]
  accepted := trivial
  phases address thread := by simp [(opened address).idle, Phase.follows]

/-- What one machine does adds to its own messages only. -/
theorem messages_append {events : List (Event numBoxes)} {other : NetworkAddress}
    {kind : Event numBoxes → Option Mail} :
    messages other kind (history ++ events.map (Prod.mk address)) =
      messages other kind history ++ if address = other then events.filterMap kind else [] := by
  rw [messages, List.filterMap_append, List.filterMap_map]
  split <;> rename_i here <;> simp [messages, here]

/-- A step of one machine. -/
theorem Delivering.machine {client : Machine numBoxes}
    (delivering : Delivering names worker machines history)
    (stepped : (postOffice (names address) address (worker address)).step (machines address) act =
      .ok client) :
    Delivering names worker (Function.update machines address client)
      (history ++ (observe address (machines address) act).map (Prod.mk address)) := by
  have inOrder := delivering.inOrder address
  have genuine := delivering.genuine address
  have moves := inOrder.served.positioned.moves disciplined stepped
  have hauls := hauls_step inOrder genuine moves
  have told := told_step (delivering.phases address) moves
  -- What the step does to the mail, seen from any machine.
  have arrives (receiver : NetworkAddress) (box : Fin numBoxes) :
      (if address = receiver then (observe address (machines address) act).filterMap (takenOf box)
        else []) ++ arriving box (Function.update machines address client receiver).data
          ((Function.update machines address client receiver).phase (worker receiver)) =
        arriving box (machines receiver).data ((machines receiver).phase (worker receiver)) := by
    by_cases here : address = receiver
    · subst here
      simpa using hauls.arriving box
    · simp [here, Function.update_of_ne (Ne.symm here)]
  have leaves (sender receiver : NetworkAddress) (box : Fin numBoxes) :
      List.Sublist
        (leaving receiver box (Function.update machines address client sender).data.network)
        (leaving receiver box (machines sender).data.network ++ if address = sender then
          (observe address (machines address) act).filterMap (passedOf receiver box) else []) := by
    by_cases here : address = sender
    · subst here
      simpa using hauls.leaving receiver box
    · simp [here, Function.update_of_ne (Ne.symm here)]
  refine ⟨delivering.apart, ?_, ?_, fun sender receiver box => ?_, ?_, ?_⟩
  -- The other machines are where they were.
  · refine (Function.forall_update_iff machines fun other client =>
      InOrder (names other) other (worker other) client).mpr ⟨?_, fun other _ =>
        delivering.inOrder other⟩
    exact inOrder.step (delivering.apart address)
      (fun packet member => (genuine.socket packet member).length_ne_zero) moves
  · exact (Function.forall_update_iff machines fun other client =>
      Genuine numBoxes other client.data.network).mpr ⟨hauls.genuine, fun other _ =>
        delivering.genuine other⟩
  · -- What is taken was in front, and what is passed on comes behind.
    rw [messages_append, messages_append, List.append_assoc, arrives]
    exact ((List.Sublist.refl _).append (leaves sender receiver box)).trans
      (List.append_assoc .. ▸ (delivering.mail sender receiver box).append (List.Sublist.refl _))
  · exact Runs.accepts_append.mpr ⟨delivering.accepted, told.accepted⟩
  · rw [List.foldl_append]
    refine (Function.forall_update_iff machines fun other client => ∀ thread,
      (client.phase thread).follows thread (((observe address (machines address) act).map
        (Prod.mk address)).foldl note (history.foldl note fun _ _ => none) other thread)).mpr
      ⟨told.phases, fun other differ => ?_⟩
    rw [told.others other differ]
    exact delivering.phases other

/-- What the host does to the sockets concerns neither threads nor interrupts. -/
theorem inOrder_host {names : Names numBoxes} {worker : Thread}
    (inOrder : InOrder names netAddr worker client) (outgoing : List (NetworkAddress × List Byte))
    (packet : List Byte) : InOrder names netAddr worker (withOutgoing client outgoing) ∧
      InOrder names netAddr worker (withPacket client packet) := by
  obtain ⟨⟨positioned, exclusive, serial⟩, ⟨alone, balance⟩⟩ := inOrder
  exact ⟨⟨⟨positioned, exclusive, serial⟩, ⟨alone, balance⟩⟩,
    ⟨⟨positioned, exclusive, serial⟩, ⟨alone, balance⟩⟩⟩

/-- The machines after the host has taken a packet from one to another. -/
def carried (machines : Machines numBoxes) (address destination : NetworkAddress)
    (packet : List Byte) (rest : List (NetworkAddress × List Byte)) : Machines numBoxes :=
  let between := Function.update machines address (withOutgoing (machines address) rest)
  Function.update between destination (withPacket (between destination) packet)

variable {destination : NetworkAddress} {rest : List (NetworkAddress × List Byte)}

/-- What holds of every machine, and of these two as well, holds of every machine afterwards. -/
theorem carried_forall
    (property : NetworkAddress → Machine numBoxes → Prop)
    (before : ∀ other, property other (machines other))
    (leaves : property address (withOutgoing (machines address) rest))
    (arrives : ∀ client, property destination client →
      property destination (withPacket client packet)) (other : NetworkAddress) :
    property other (carried machines address destination packet rest other) := by
  have between := (Function.forall_update_iff machines property).mpr
    ⟨leaves, fun other _ => before other⟩
  exact (Function.forall_update_iff _ property).mpr
    ⟨arrives _ (between destination), fun other _ => between other⟩ other

/-- A packet at the socket is behind all that is there. -/
theorem arriving_withPacket (working : Phase numBoxes) :
    arriving box (withPacket client packet).data working =
      arriving box client.data working ++ [Mail.opened packet].filter (isFor box) := by
  change client.data.boxes box ++ inHand box working ++ (buffered client.data.network ++
    (client.data.network.socket ++ [packet]).map Mail.opened).filter (isFor box) = _
  simp only [arriving, List.map_append, List.map_cons, List.map_nil, List.filter_append,
    List.append_assoc]

/-- The packet comes to the end of the line on its destination. -/
theorem arriving_carried (receiver : NetworkAddress) :
    arriving box (carried machines address destination packet rest receiver).data
        ((carried machines address destination packet rest receiver).phase (worker receiver)) =
      arriving box (machines receiver).data ((machines receiver).phase (worker receiver)) ++
        if receiver = destination then [Mail.opened packet].filter (isFor box) else [] := by
  have between : arriving box
      (Function.update machines address (withOutgoing (machines address) rest) receiver).data
      ((Function.update machines address (withOutgoing (machines address) rest) receiver).phase
        (worker receiver)) =
      arriving box (machines receiver).data ((machines receiver).phase (worker receiver)) := by
    by_cases here : receiver = address
    · subst here
      rw [Function.update_self]
      rfl
    · rw [Function.update_of_ne here]
  by_cases there : receiver = destination
  · subst there
    rw [carried, Function.update_self, if_pos rfl, ← between]
    exact arriving_withPacket _
  · rw [carried, Function.update_of_ne there, if_neg there, List.append_nil]
    exact between

/-- It comes from the front of the line on its sender. -/
theorem leaving_carried
    (waiting : (machines address).data.network.outgoing = (destination, packet) :: rest)
    (sender receiver : NetworkAddress) :
    leaving receiver box (machines sender).data.network =
      (if sender = address ∧ receiver = destination then [Mail.opened packet].filter (isFor box)
        else []) ++ leaving receiver box
          (carried machines address destination packet rest sender).data.network := by
  have arrived : leaving receiver box
      (carried machines address destination packet rest sender).data.network =
        leaving receiver box (Function.update machines address
          (withOutgoing (machines address) rest) sender).data.network := by
    by_cases there : sender = destination
    · subst there
      rw [carried, Function.update_self]
      rfl
    · rw [carried, Function.update_of_ne there]
  rw [arrived]
  by_cases here : sender = address
  · subst here
    rw [Function.update_self, leaving, waiting]
    by_cases there : receiver = destination
    · by_cases wanted : isFor box (Mail.opened packet) <;>
        simp [there, leaving, withOutgoing, wanted]
    · simp [there, Ne.symm there, leaving, withOutgoing]
  · simp [here]

/-- The host takes a packet from one machine to another. -/
theorem Delivering.carry (delivering : Delivering names worker machines history)
    (waiting : (machines address).data.network.outgoing = (destination, packet) :: rest) :
    Delivering names worker (carried machines address destination packet rest) history := by
  have genuine := delivering.genuine address
  obtain ⟨parcel, others, shape, mine⟩ := genuine.outgoing (destination, packet) (by simp [waiting])
  obtain ⟨rfl, rfl⟩ := Prod.mk.inj shape
  refine ⟨delivering.apart, carried_forall _ delivering.inOrder ?_ ?_,
    carried_forall (fun address client => Genuine numBoxes address client.data.network)
      delivering.genuine ?_ ?_, fun sender receiver box => ?_, delivering.accepted, ?_⟩
  · exact (inOrder_host (delivering.inOrder address) rest []).1
  · exact fun client inOrder => (inOrder_host inOrder [] _).2
  · exact ⟨genuine.socket, genuine.inbox, fun item member => genuine.outgoing item
      (by rw [waiting]; exact List.mem_cons_of_mem _ member)⟩
  · refine fun client genuine => ⟨fun other member => ?_, genuine.inbox, genuine.outgoing⟩
    rcases List.mem_append.mp member with old | new
    · exact genuine.socket other old
    · exact ⟨parcel, others, List.mem_singleton.mp new⟩
  · have before := delivering.mail sender receiver box
    rw [leaving_carried waiting, Mail.opened_packet, ← List.append_assoc] at before
    rw [arriving_carried, Mail.opened_packet, ← List.append_assoc, List.filter_append]
    refine (List.Sublist.append ?_ (List.Sublist.refl _)).trans before
    refine (List.Sublist.refl _).append ?_
    by_cases there : receiver = parcel.pktHdr.to_
    · by_cases here : sender = address
      · simp only [there, here, and_self, if_true]
        exact List.filter_sublist
      · -- The packet is from another sender.
        have foreign : isFrom sender parcel.toMail = false := by
          simpa [isFrom, mine] using Ne.symm here
        by_cases wanted : isFor box parcel.toMail <;> simp [there, wanted, foreign]
    · simp [there]
  · exact carried_forall (fun address client => ∀ thread, (client.phase thread).follows thread
      (history.foldl note (fun _ _ => none) address thread)) delivering.phases
      (delivering.phases address) fun _ same => same

/-- Every step keeps the machines in order. -/
theorem Delivering.step {move : Move} {after : Machines numBoxes}
    (delivering : Delivering names worker machines history)
    (stepped : PostOffice.step names worker machines move = .ok after) :
    Delivering names worker after (history ++ witnessed machines move after) := by
  cases move with
  | machine address act =>
    simp only [PostOffice.step] at stepped
    split at stepped
    · rename_i client moved
      obtain rfl := Except.ok.inj stepped
      exact delivering.machine moved
    · cases stepped
  | carry address =>
    simp only [PostOffice.step] at stepped
    split at stepped
    · cases stepped
    · rename_i destination packet rest waiting
      obtain rfl := Except.ok.inj stepped
      rw [witnessed, List.append_nil]
      exact delivering.carry waiting

/-- The machines after any run. -/
theorem delivering_of_traced (traced : Runs.Traced (step names worker) (Opened names worker main)
    (fun _ _ => True) witnessed machines history) : Delivering names worker machines history := by
  refine traced.invariant (fun machines history => Delivering names worker machines history) ?_ ?_
  · exact fun machines opened => delivering_of_opened opened
  · exact fun machines move after history delivering _ stepped => delivering.step stepped

/--
Mail is delivered in order and without duplicates, in whatever order everything happens.

The messages that are taken from a box and come from one machine are some of those that this
machine has passed to its network for that box, in the same order. Every call of `Send` passes its
own message on once, every call of `Receive` returns the message that it has taken, and no machine
has two packets outstanding.
-/
theorem mail_in_order (traced : Runs.Traced (step names worker) (Opened names worker main)
    (fun _ _ => True) witnessed machines history) :
    (∀ sender receiver (box : Fin numBoxes), List.Sublist
      ((messages receiver (takenOf box) history).filter (isFrom sender))
      (messages sender (passedOf receiver box) history)) ∧
    Runs.Accepts note Continues (fun _ _ => none) history ∧
    ∀ address, (machines address).data.network.scheduled ≤ 1 := by
  have delivering := delivering_of_traced traced
  refine ⟨fun sender receiver box => ?_, delivering.accepted, fun address => ?_⟩
  · -- What has been taken is in front of what is still on its way.
    refine List.Sublist.trans ?_ (delivering.mail sender receiver box)
    rw [List.filter_append, List.append_assoc]
    exact List.sublist_append_left _ _
  · simpa [outstanding] using (delivering.inOrder address).served.length_pending

/-- The objects of a post office with one box. -/
def oneBox : Names 1 where
  messageAvailable := 0
  messageSent := 1
  sendLock := 0
  lock := fun _ => 1
  listEmpty := fun _ => 0

/-- The post office that the first thread of a machine has made. -/
def firstOffice : Machine 1 where
  kernel := oneBox.objects.foldl (fun kernel pair => kernel.construct pair.1 pair.2) firstKernel
  data := ⟨⟨false, ⟨0, 0, 0⟩, [], 0, [], []⟩, fun _ => []⟩
  phase := fun _ => .idle

/-- Its constructor has run. -/
theorem init_firstOffice (address : NetworkAddress) : Init oneBox address 1 0 firstOffice where
  made := by
    -- The objects are the first ones of their kinds, and nothing else is owned.
    refine ⟨fun object owned => ?_, firstKernel, [], .start boot_firstKernel, fun _ _ => rfl, rfl⟩
    simpa [postOffice] using owned
  idle := fun _ => rfl
  boxes := fun _ => rfl
  sendBusy := rfl
  inHdr := rfl
  scheduled := rfl
  socket := rfl
  outgoing := rfl

/-- One such machine at every address. -/
def firstMachines : Machines 1 := fun _ => firstOffice

/-- A call of `Send` with one byte for the box of machine 1. -/
def sendByte (value : Byte) : Act Entry Chance Signal :=
  .enter (.send ⟨1, 0, 0⟩ ⟨0, 0, 1⟩ [value])

/-- The message of such a call on machine 0. -/
def byteMail (value : Byte) : Mail := ⟨⟨1, 0, 13⟩, ⟨0, 0, 1⟩, [value]⟩

/-- The next statement; a packet to machine 1 is not lost, and has zeros behind its 25 bytes. -/
def goOn : Act Entry Chance Signal := .go ⟨false, [1], List.replicate 39 0⟩

/-- Thread 2 waits for `sendLock` while thread 0 sends, gives it back and takes it again. -/
def overtake : List (Act Entry Chance Signal) :=
  [.other (.fork 2), sendByte 0, goOn, goOn, sendByte 1, .device .networkSendDone,
    .other .dispatch, .other .resume, goOn, sendByte 2, goOn, goOn, .other .resume,
    .device .networkSendDone, .other .dispatch, .other .resume, goOn, .other .yield,
    .other .resume, goOn]

/-- The postal worker starts and puts three packets into the box, and thread 0 takes them. -/
def collect : List (Act Entry Chance Signal) :=
  [.other (.fork 1), .other .yield, .enter (.postalDelivery []), goOn] ++
  (List.replicate 3 [.device .networkReadPoll, .other .yield, .other .resume, goOn, goOn, goOn,
    goOn, goOn]).flatten ++
  (List.replicate 3 [.enter (.receive 0), goOn, goOn, goOn, goOn]).flatten

/-- Machine 0 sends, the host carries the packets, and machine 1 receives. -/
def overtaking : List Move :=
  overtake.map (.machine 0) ++ [.carry 0, .carry 0, .carry 0] ++ collect.map (.machine 1)

/-- The run is one of these machines, and this is its history. -/
theorem traced_overtaking : ∃ machines, Runs.Traced (step (fun _ => oneBox) fun _ => 1)
    (Opened (fun _ => oneBox) (fun _ => 1) fun _ => 0) (fun _ _ => True) witnessed machines
    (Runs.record (step (fun _ => oneBox) fun _ => 1) witnessed firstMachines overtaking) := by
  obtain ⟨machines, ran, -⟩ := Runs.exists_of_runsTo
    (show Runs.runsTo (step (fun _ => oneBox) fun _ => 1) firstMachines overtaking
      (fun machines => (machines 1).data.network.socket = []) = true by decide +kernel)
  have start : Runs.Traced (step (fun _ => oneBox) fun _ => 1)
      (Opened (fun _ => oneBox) (fun _ => 1) fun _ => 0) (fun _ _ => True) witnessed firstMachines
      [] := .start fun address => init_firstOffice address
  exact ⟨machines, start.extend (Runs.guarded_of_forall (fun _ _ _ => trivial) firstMachines) ran⟩

/-- In this run three messages are taken in the order in which they were passed on. -/
theorem mail_in_order_overtaking : ∃ history,
    messages 1 (takenOf (0 : Fin 1)) history = [byteMail 0, byteMail 2, byteMail 1] ∧
    List.Sublist ((messages 1 (takenOf (0 : Fin 1)) history).filter (isFrom 0))
      (messages 0 (passedOf 1 0) history) := by
  obtain ⟨machines, traced⟩ := traced_overtaking
  exact ⟨_, by decide +kernel, (mail_in_order traced).1 0 1 0⟩

/-- They are not returned in the order in which `Send` was called. -/
theorem not_call_order_overtaking : ∃ machines history,
    Runs.Traced (step (fun _ => oneBox) fun _ => 1)
      (Opened (fun _ => oneBox) (fun _ => 1) fun _ => 0) (fun _ _ => True) witnessed machines
      history ∧
    ¬ List.Sublist ((messages 1 (returnedOf (0 : Fin 1)) history).filter (isFrom 0))
      (messages 0 (calledOf 1 0) history) := by
  obtain ⟨machines, traced⟩ := traced_overtaking
  exact ⟨machines, _, traced, by decide +kernel⟩

end Nachos.PostOffice
