import Nachos.Lib.Runs
import Nachos.Userprog.AddrSpace

/-! What `Fork` promises: the threads of a family share memory below the stack. -/

namespace Nachos.Userprog

/-- What a program does that the other programs of its family may notice. -/
inductive Access where
  /-- An address space of so many pages was created from an executable. -/
  | executed (thread : Thread) (numPages : Nat)
  /-- A thread called `Fork`. -/
  | forked (father child : Thread)
  /-- A store completed, and these bytes were written. -/
  | stored (thread : Thread) (addr : BitVec 32) (bytes : List Byte)
  /-- A load completed, and this value was read. -/
  | loaded (thread : Thread) (addr : BitVec 32) (size : Nat) (value : BitVec 32)
  deriving DecidableEq

/-- The memory that programs are promised, as far as their own stores determine it. -/
structure Families where
  /-- How many threads there have been. Each is numbered by this count when it is created. -/
  created : Nat
  serial : Thread → Nat
  /-- The number of the thread that loaded the executable. -/
  family : Thread → Nat
  numPages : Thread → Nat
  /-- What each family last stored at an address. -/
  shared : Nat → Nat → Option Byte
  /-- Which thread of the family did so. -/
  writer : Nat → Nat → Option Nat
  /-- What each thread itself last stored at an address. -/
  stack : Thread → Nat → Option Byte

namespace Families

/-- Nothing has been created yet. -/
def start : Families :=
  ⟨0, fun _ => 0, fun _ => 0, fun _ => 0, fun _ _ => none, fun _ _ => none, fun _ _ => none⟩

/-- A function changed at one argument. -/
def assign {α β : Type} [DecidableEq α] (map : α → β) (key : α) (value : β) : α → β :=
  fun other => if other = key then value else map other

/-- A function changed at one argument answers with the new value there. -/
theorem assign_apply {α β : Type} [DecidableEq α] (map : α → β) (key other : α) (value : β) :
    assign map key value other = if other = key then value else map other := rfl

/-- Is the page below the stack of the thread? -/
def global (families : Families) (thread : Thread) (page : Nat) : Bool :=
  (page : Int) < families.numPages thread - stackPages

/-- What a thread is promised to read at an address; nothing, if there was no store to it. -/
def cell (families : Families) (thread : Thread) (address : Nat) : Option Byte :=
  if families.global thread (address / pageSize) then families.shared (families.family thread) address
  else families.stack thread address

/-- The effect of one event on the promise. -/
def apply (families : Families) : Access → Families
  | .executed thread numPages => { families with
      created := families.created + 1
      serial := assign families.serial thread families.created
      family := assign families.family thread families.created
      numPages := assign families.numPages thread numPages
      shared := assign families.shared families.created fun _ => none
      writer := assign families.writer families.created fun _ => none
      stack := assign families.stack thread fun _ => none }
  | .forked father child => { families with
      created := families.created + 1
      serial := assign families.serial child families.created
      family := assign families.family child (families.family father)
      numPages := assign families.numPages child (families.numPages father)
      stack := assign families.stack child fun _ => none }
  | .stored thread addr bytes => { families with
      shared := assign families.shared (families.family thread)
        (Blocks.setCells (families.shared (families.family thread)) addr.toNat (bytes.map some))
      writer := assign families.writer (families.family thread)
        (Blocks.setCells (families.writer (families.family thread)) addr.toNat
          (bytes.map fun _ => some (families.serial thread)))
      stack := assign families.stack thread
        (Blocks.setCells (families.stack thread) addr.toNat (bytes.map some)) }
  | .loaded _ _ _ _ => families

/-- A load keeps the promise when it reads the bytes that were stored last. -/
def Keeps (families : Families) : Access → Prop
  | .loaded thread addr size value => ∃ bytes, decodeBytes bytes = some value ∧
      bytes.length = size ∧ ∀ offset byte, offset < size →
        families.cell thread (addr.toNat + offset) = some byte → bytes[offset]? = some byte
  | _ => True

/-- A load looks only at bytes below the stack that no other thread of the family wrote last. -/
def OwnWrites (families : Families) : Access → Prop
  | .loaded thread addr size _ => ∀ offset, offset < size →
      families.global thread ((addr.toNat + offset) / pageSize) = true →
      families.writer (families.family thread) (addr.toNat + offset) = none ∨
        families.writer (families.family thread) (addr.toNat + offset) =
          some (families.serial thread)
  | _ => True

instance (families : Families) (access : Access) : Decidable (families.OwnWrites access) :=
  match access with
  | .loaded thread addr size _ => inferInstanceAs (Decidable (∀ offset, offset < size →
      families.global thread ((addr.toNat + offset) / pageSize) = true →
      families.writer (families.family thread) (addr.toNat + offset) = none ∨
        families.writer (families.family thread) (addr.toNat + offset) =
          some (families.serial thread)))
  | .executed _ _ | .forked _ _ | .stored _ _ _ => .isTrue trivial

/-- The promise after a history, oldest event first. -/
def after (history : List Access) : Families := history.foldl apply start

/-- Events are applied one after the other. -/
@[simp] theorem after_append (earlier later : List Access) :
    after (earlier ++ later) = later.foldl apply (after earlier) := by
  simp [after]

end Families

/-- Every load of a history keeps the promise of `Fork`. -/
def ForkShares (history : List Access) : Prop :=
  Runs.Accepts Families.apply Families.Keeps Families.start history

/-- No load of a history depends on what another thread of the family stored. -/
def LoadsOwn (history : List Access) : Prop :=
  Runs.Accepts Families.apply Families.OwnWrites Families.start history

instance (history : List Access) : Decidable (LoadsOwn history) :=
  inferInstanceAs (Decidable (Runs.Accepts _ _ _ _))

/-- What a step of the linear build shows to the observer. -/
def observe (before : Kernel) (action : Action) (_ : Kernel) : List Access :=
  match action with
  | .exec thread file => [.executed thread file.numPages]
  | .fork thread =>
    match before.currentThread with
    | some father => [.forked father thread]
    | none => []
  | .load addr size =>
    match before.running with
    | none => []
    | some (thread, space) =>
      match readMem (.pageTable space.pageTable) before.mainMemory addr size with
      | .ok (value, _) => [.loaded thread addr size value]
      | .error _ => []
  | .store addr size value =>
    match before.currentThread, encodeBytes size value with
    | some thread, some bytes => [.stored thread addr bytes]
    | _, _ => []
  | .exit | .switchTo _ => []

end Nachos.Userprog
