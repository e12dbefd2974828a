import Mathlib.Data.Finset.Card
import Nachos.Syscall.ControlTable

/-! The five tables of a thread: who points to them, who counts them, and who deletes them. -/

namespace Nachos.Syscall

/-- The tables that a `Thread` points to. -/
inductive TableKind where
  | file
  | thread
  | sem
  | lock
  | cond
  deriving DecidableEq, Repr

namespace TableKind

/-- What a table of this kind holds: descriptors of the host, or pointers to objects. -/
abbrev Item : TableKind → Type
  | .file => Int
  | .thread => Option Thread
  | .sem | .lock | .cond => Option Nat

instance (kind : TableKind) : Inhabited kind.Item :=
  match kind with
  | .file => inferInstanceAs (Inhabited Int)
  | .thread => inferInstanceAs (Inhabited (Option Thread))
  | .sem | .lock | .cond => inferInstanceAs (Inhabited (Option Nat))

/-- The slots that a `memset` of `TABLE_SIZE` bytes clears: 4 bytes for an `int`, 8 for a pointer. -/
def cleared : TableKind → Nat
  | .file => 25
  | .thread | .sem | .lock | .cond => 12

/-- The order in which the source creates and shares the tables. -/
def shareOrder : List TableKind := [.file, .thread, .sem, .lock, .cond]

/-- The order in which the source leaves and deletes them. -/
def removeOrder : List TableKind := [.thread, .file, .sem, .lock, .cond]

end TableKind

/-- The memory with the tables in it, the pointers of all threads, and the threads that are alive. -/
structure Resources where
  /-- The tables at their addresses; none where nothing was created, or was deleted. -/
  heap : (kind : TableKind) → Nat → Option (ControlTable kind.Item)
  /-- `fileTable`, `threadTable`, `semTable`, `lockTable` and `condTable` of every thread. -/
  pointer : Thread → TableKind → Option Nat
  /-- The threads that run programs, from their creation to their `Finish`. -/
  live : Finset Thread

namespace Resources

/-- What the memory holds that the allocator gives to a new table. -/
structure Garbage (kind : TableKind) where
  objects : Int → kind.Item
  words : List (BitVec 32)
  covers : tableSize ≤ bitsInWord * words.length

/-- Place a table at an address, or take it away. -/
def setTable (state : Resources) (kind : TableKind) (address : Nat)
    (table : Option (ControlTable kind.Item)) : Resources :=
  { state with
    heap := Function.update state.heap kind (Function.update (state.heap kind) address table) }

/-- `new ControlTable`, for a pointer of a thread. -/
def newTable (state : Resources) (thread : Thread) (kind : TableKind) (address : Nat)
    (garbage : Garbage kind) : Resources :=
  { state.setTable kind address (some (.new kind.cleared garbage.objects garbage.words
      garbage.covers)) with
    pointer := Function.update state.pointer thread
      (Function.update (state.pointer thread) kind (some address)) }

/-- Follow a pointer of a thread to its table. -/
def follow (state : Resources) (thread : Thread) (kind : TableKind) :
    Except Fault (Nat × ControlTable kind.Item) :=
  match state.pointer thread kind with
  | none => .error (.wildAccess 0)
  | some address =>
    match state.heap kind address with
    | none => .error (.wildAccess address)
    | some table => .ok (address, table)

/-- Call a method of a table that changes nothing but the table. -/
def onTable (state : Resources) (thread : Thread) (kind : TableKind)
    (change : ControlTable kind.Item → ControlTable kind.Item) : Except Fault Resources := do
  let (address, table) ← state.follow thread kind
  return state.setTable kind address (some (change table))

/-- `Open` of a table of a thread. -/
def openItem (state : Resources) (thread : Thread) (kind : TableKind) (item : kind.Item) :
    Except Fault Resources :=
  state.onTable thread kind fun table => (table.open_ item).2

/-- One table of `ShareResources`. -/
def shareTable (state : Resources) (src dst : Thread) (kind : TableKind) :
    Except Fault Resources :=
  { state with
    pointer := Function.update state.pointer dst
      (Function.update (state.pointer dst) kind (state.pointer src kind))
    }.onTable dst kind ControlTable.addThread

/-- `ShareResources`. -/
def shareResources (state : Resources) (src dst : Thread) : Except Fault Resources :=
  TableKind.shareOrder.foldlM (fun state kind => state.shareTable src dst kind) state

/-- Delete a table that nobody uses any more; the answer is whether that was the case. -/
def deleteUnused (state : Resources) (thread : Thread) (kind : TableKind) :
    Except Fault (Bool × Resources) := do
  let (address, table) ← state.follow thread kind
  if table.usage = 0 then return (true, state.setTable kind address none)
  else return (false, state)

/-- `removeResources`; the answer is whether all five tables were deleted. -/
def removeResources (state : Resources) (thread : Thread) : Except Fault (Bool × Resources) := do
  let (address, table) ← state.follow thread .thread
  -- Slots are compared with the thread whether they are open or not.
  let (_, table) ← table.close (table.getID (some thread))
  let state ← TableKind.removeOrder.foldlM
    (fun state kind => state.onTable thread kind ControlTable.delThread)
    (state.setTable .thread address (some table))
  TableKind.removeOrder.foldlM (fun (finish, state) kind => do
    let (deleted, state) ← state.deleteUnused thread kind
    return (finish && deleted, state)) (true, state)

/-- `StartProcess`, as far as the tables are concerned. -/
def startProcess (state : Resources) (main : Thread) (address : TableKind → Nat)
    (garbage : (kind : TableKind) → Garbage kind) : Except Fault Resources := do
  let state := TableKind.shareOrder.foldl
    (fun state kind => state.newTable main kind (address kind) (garbage kind)) state
  let state ← state.openItem main .file (0 : Int)
  let state ← state.openItem main .file (1 : Int)
  let state ← state.openItem main .file (2 : Int)
  let state ← state.openItem main .thread (some main)
  return { state with live := insert main state.live }

/-- A new thread is registered, shares the tables of the running one, and becomes ready. -/
def spawn (state : Resources) (current new : Thread) : Except Fault Resources := do
  -- The constructor of `Thread` sets all pointers to NULL.
  let state := { state with pointer := Function.update state.pointer new fun _ => none }
  let state ← state.openItem current .thread (some new)
  let state ← state.shareResources current new
  return { state with live := insert new state.live }

/-- `NachOS_Exec`, when the executable opens or does not. -/
def nachOSExec (state : Resources) (current new : Thread) (executable : Bool) :
    Except Fault Resources :=
  if executable then state.spawn current new else .ok state

/-- `NachOS_Fork`. -/
def nachOSFork (state : Resources) (current new : Thread) : Except Fault Resources :=
  state.spawn current new

/-- `NachOS_Exit` behind its `Yield`: the thread finishes. -/
def nachOSExit (state : Resources) (current : Thread) : Except Fault Resources := do
  let (_, state) ← state.removeResources current
  return { state with live := state.live.erase current }

/-- The calls that create and end threads, by any thread that is alive. -/
inductive Action where
  | exec (current new : Thread) (executable : Bool)
  | fork (current new : Thread)
  | exit (current : Thread)
  deriving DecidableEq, Repr

/-- The thread that makes the call. -/
def Action.caller : Action → Thread
  | .exec current _ _ | .fork current _ | .exit current => current

/-- The address of the thread that a call creates, if it does. -/
def Action.created : Action → Option Thread
  | .exec _ new true | .fork _ new => some new
  | .exec _ _ false | .exit _ => none

/-- One call; `new Thread` never answers with the address of a thread that is alive. -/
def step (state : Resources) (action : Action) : Except Fault Resources :=
  if action.caller ∈ state.live ∧ ∀ new ∈ action.created, new ∉ state.live then
    match action with
    | .exec current new executable => state.nachOSExec current new executable
    | .fork current new => state.nachOSFork current new
    | .exit current => state.nachOSExit current
  else .error .disabled

/-- The state when `StartProcess` jumps to the first program. -/
def Started (main : Thread) (state : Resources) : Prop :=
  ∃ address garbage, startProcess ⟨fun _ _ => none, fun _ _ => none, ∅⟩ main address garbage =
    .ok state

/-- No more than `TABLE_SIZE` threads are alive at once. -/
def AtMostTableSize (state : Resources) (action : Action) : Prop :=
  action.created.isSome → state.live.card < tableSize

instance (state : Resources) (action : Action) : Decidable (state.AtMostTableSize action) :=
  inferInstanceAs (Decidable (_ → _))

/-- The live threads that point to a table. -/
def pointing (state : Resources) (kind : TableKind) (address : Nat) : Finset Thread :=
  state.live.filter fun thread => state.pointer thread kind = some address

end Resources

end Nachos.Syscall
