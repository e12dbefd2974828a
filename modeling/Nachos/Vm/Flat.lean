import Nachos.Lib.Runs
import Nachos.Machine.TranslateLaws
import Nachos.Vm.Kernel

/-! The memory that programs believe they have: one flat array of bytes for each address space. -/

namespace Nachos.Vm

/-- What an observer of the programs sees. -/
inductive Event where
  /-- An address space was created from an executable. -/
  | created (thread : Thread) (file : Executable)
  /-- A store completed, and these bytes were written. -/
  | stored (thread : Thread) (addr : BitVec 32) (bytes : List Byte)
  /-- A load completed, and this value was read. -/
  | loaded (thread : Thread) (addr : BitVec 32) (size : Nat) (value : BitVec 32)

/-- The byte of a lazily loaded executable at a virtual address. -/
def image (file : Executable) (address : Nat) : Byte :=
  let executableSize := file.header.code.size + file.header.initData.size
  if ((address / pageSize : Nat) : Int) < divRoundUp executableSize.toInt pageSize then
    (file.byteAt (file.header.code.inFileAddr.toInt + address)).getD 0
  else 0

/-- The effect of one event on the flat memories. -/
def Event.apply (memories : Thread → Memory) : Event → Thread → Memory
  | .created thread file => fun other => if other = thread then image file else memories other
  | .stored thread addr bytes => fun other =>
    if other = thread then Blocks.setCells (memories other) addr.toNat bytes else memories other
  | .loaded _ _ _ _ => memories

/-- A load agrees with the flat memories when it reads what they hold. -/
def Event.Agrees (memories : Thread → Memory) : Event → Prop
  | .loaded thread addr size value =>
    decodeBytes (Blocks.cells (memories thread) addr.toNat size) = some value
  | _ => True

/-- Every load of a history reads what the stores before it left. -/
def Consistent (memories : Thread → Memory) (history : List Event) : Prop :=
  Runs.Accepts Event.apply Event.Agrees memories history

/-- The flat memory of every address space after a history, oldest event first. -/
def flat (history : List Event) : Thread → Memory :=
  history.foldl Event.apply fun _ _ => 0

/-- Does the machine complete the reference of an action without an exception? -/
def Kernel.completes (kernel : Kernel) : Action → Bool
  | .load addr size => (readMem (.tlb kernel.tlb) kernel.mainMemory addr size).isOk
  | .store addr size value => (writeMem (.tlb kernel.tlb) kernel.mainMemory addr size value).isOk
  | _ => false

/-- What a step shows to the observer. A reference that faults shows nothing. -/
def observe (before : Kernel) (action : Action) (_ : Kernel) : List Event :=
  match action with
  | .exec thread file _ => [.created thread file]
  | .fork thread _ =>
    match before.currentThread.bind before.invertedTable.get? with
    | some father => [.created thread father.file]
    | none => []
  | .load addr size =>
    match before.currentThread, readMem (.tlb before.tlb) before.mainMemory addr size with
    | some thread, .ok (value, _) => [.loaded thread addr size value]
    | _, _ => []
  | .store addr size value =>
    match before.currentThread, encodeBytes size value,
      writeMem (.tlb before.tlb) before.mainMemory addr size value with
    | some thread, some bytes, .ok _ => [.stored thread addr bytes]
    | _, _, _ => []
  | .exit | .switchTo _ => []

/-- Events are applied one after the other. -/
@[simp] theorem flat_append (earlier later : List Event) :
    flat (earlier ++ later) = later.foldl Event.apply (flat earlier) := by
  simp [flat]

/-- A file has no byte beyond the range of `int`. -/
theorem Executable.byteAt_eq_none {file : Executable} {position : Int}
    (outside : position < 0 ∨ 2 ^ 31 ≤ position) : file.byteAt position = none := by
  have fits := file.fits
  unfold Executable.byteAt
  split
  · apply List.getElem?_eq_none
    omega
  · rfl

/-- A page that was never written looks like the executable. -/
theorem block_image (file : Executable) (page : Nat) :
    Blocks.block pageSize (image file) page = initialPage file page := by
  funext offset
  have number : (page * pageSize + offset) / pageSize = page := Blocks.address_div page offset
  simp only [Blocks.block, image, initialPage, number]
  split
  · rename_i below
    have early : (page * 128 : Int) < (file.header.code.size + file.header.initData.size).toInt :=
      lt_divRoundUp below
    have last := (file.header.code.size + file.header.initData.size).toInt_lt
    have low := file.header.code.inFileAddr.le_toInt
    have high := file.header.code.inFileAddr.toInt_lt
    have inside : (offset : Nat) < 128 := offset.isLt
    have start : page * pageSize = page * 128 := rfl
    have sum : (file.header.code.inFileAddr + BitVec.ofNat 32 (page * 128)).toInt =
        (file.header.code.inFileAddr.toInt + (page * 128 : Nat)).bmod (2 ^ 32) := by
      rw [BitVec.toInt_add, BitVec.toInt_ofNat', Int.add_bmod_bmod]
    rw [start, sum]
    rcases Int.lt_or_le (file.header.code.inFileAddr.toInt + (page * 128 : Nat)) (2 ^ 31) with
      near | far
    · have whole : (file.header.code.inFileAddr.toInt + (page * 128 : Nat)).bmod (2 ^ 32) =
          file.header.code.inFileAddr.toInt + (page * 128 : Nat) := by
        rw [Int.bmod_def]
        omega
      rw [whole]
      congr 2
      omega
    · -- Past the range of `int` the position wraps around to a negative one, and no byte is there.
      have wraps : (file.header.code.inFileAddr.toInt + (page * 128 : Nat)).bmod (2 ^ 32) =
          file.header.code.inFileAddr.toInt + (page * 128 : Nat) - 2 ^ 32 := by
        rw [Int.bmod_def]
        omega
      rw [wraps, Executable.byteAt_eq_none (.inr (by omega))]
      dsimp only
      rw [Executable.byteAt_eq_none (.inl (by omega))]
  · rfl

end Nachos.Vm
