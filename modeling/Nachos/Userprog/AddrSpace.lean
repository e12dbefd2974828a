import Nachos.Lib.Runs
import Nachos.Userprog.BitMap
import Nachos.Userprog.Executable

/-! The linear build: whole programs in memory, and `Fork` children that share frames. -/

namespace Nachos.Userprog

/-- `AddrSpace` of the linear build; `numPages` is the length of the page table. -/
structure AddrSpace where
  pageTable : List TranslationEntry
  usage : Int
  deriving DecidableEq

/-- The number of pages at the end of an address space that hold the stack. -/
def stackPages : Int := divRoundUp userStackSize pageSize

/-- The first page of the stack; a program that is too small has a negative one. -/
def AddrSpace.stackPagesInit (space : AddrSpace) : Int := space.pageTable.length - stackPages

/-- The globals of the linear build and the parts of the machine they work on. -/
structure Kernel where
  mainMemory : Memory
  physicalPageMap : BitMap
  /-- The `space` of every thread that has one. -/
  space : Thread → Option AddrSpace
  /-- The running thread, while it has an address space; the machine uses its page table. -/
  currentThread : Option Thread

/-- Give a thread an address space, or take it away. -/
def Kernel.setSpace (kernel : Kernel) (thread : Thread) (space : Option AddrSpace) : Kernel :=
  { kernel with space := fun other => if other = thread then space else kernel.space other }

/-- `physicalPageMap->Find()` and `bzero` of the frame, as both constructors take frames. -/
def Kernel.takeFrame (kernel : Kernel) : Except Fault (Nat × Kernel) :=
  match kernel.physicalPageMap.find with
  -- Without a clear bit the answer is -1, and the page before `mainMemory` is cleared.
  | none => .error (.wildAccess noPhysicalPage)
  | some (number, map) => .ok (number, { kernel with
      mainMemory := Blocks.setBlock pageSize kernel.mainMemory number zeroPage
      physicalPageMap := map })

/-- The loop of both constructors: some pages get a frame of their own, the others keep theirs. -/
def Kernel.fillTable (fresh : Nat → Bool) :
    Kernel → Nat → List TranslationEntry → Except Fault (List TranslationEntry × Kernel)
  | kernel, _, [] => .ok ([], kernel)
  | kernel, page, entry :: rest =>
    if fresh page then do
      let (number, kernel) ← kernel.takeFrame
      let (table, kernel) ← kernel.fillTable fresh (page + 1) rest
      return ({ entry with physicalPage := number } :: table, kernel)
    else do
      let (table, kernel) ← kernel.fillTable fresh (page + 1) rest
      return (entry :: table, kernel)

/-- The frame of a page of the table under construction. -/
def frameOf (table : List TranslationEntry) (page : Nat) : Except Fault Nat :=
  match table[page]? with
  | none => .error (.wildAccess page)
  | some entry => frameNumber entry.physicalPage

section Loader

variable (file : Executable) (table : List TranslationEntry)

/-- `PageSize` as an `int`. -/
def pageBytes : BitVec 32 := BitVec.ofNat 32 pageSize

/--
The loop that reads the code segment page by page.

It answers with the memory, the number of pages filled and whether the last one has room for data.
-/
def loadCode : Nat → Memory → Nat → BitVec 32 → Bool → Except Fault (Memory × Nat × Bool)
  | 0, memory, pageCount, _, dataMerge => .ok (memory, pageCount, dataMerge)
  | count + 1, memory, pageCount, byteCount, dataMerge => do
    let number ← frameOf table pageCount
    let position := file.header.code.inFileAddr + byteCount
    let byteCount := byteCount + pageBytes
    let last := file.header.code.size.slt byteCount
    let numBytes := if last then file.header.code.size.srem pageBytes else pageBytes
    let bytes ← file.readAt numBytes position
    loadCode count (Blocks.setCells memory (number * pageSize) bytes) (pageCount + 1) byteCount
      (dataMerge || last)

/-- The bytes left in the last page of the code segment. -/
def mergeRoom : BitVec 32 := pageBytes - file.header.code.size.srem pageBytes

/-- Read the data that shares the last page of the code segment, if any, and count its bytes. -/
def mergeData (dataMerge : Bool) (memory : Memory) (pageCount : Nat) :
    Except Fault (Memory × BitVec 32) :=
  if dataMerge && file.header.initData.size != 0 then do
    let position := file.header.initData.inFileAddr
    let room := mergeRoom file
    let numBytes := if file.header.initData.size.slt room then file.header.initData.size else room
    let number ← frameOf table (pageCount - 1)
    let offset := (file.header.code.size.srem pageBytes).toNat
    let bytes ← file.readAt numBytes position
    return (Blocks.setCells memory (number * pageSize + offset) bytes, numBytes)
  else .ok (memory, 0)

/-- The loop that reads the rest of the initialised data page by page. -/
def loadData : Nat → Memory → Nat → BitVec 32 → Except Fault Memory
  | 0, memory, _, _ => .ok memory
  | count + 1, memory, pageCount, byteCount => do
    let number ← frameOf table pageCount
    let position := file.header.initData.inFileAddr + byteCount
    let byteCount := byteCount + pageBytes
    let numBytes := if file.header.initData.size.slt byteCount then
      file.header.initData.size - (byteCount - pageBytes) else pageBytes
    let bytes ← file.readAt numBytes position
    loadData count (Blocks.setCells memory (number * pageSize) bytes) (pageCount + 1) byteCount

/-- The part of the constructor that reads the executable into the frames of the table. -/
def loadSegments (memory : Memory) : Except Fault Memory := do
  let codePages := divRoundUp file.header.code.size.toInt pageSize
  let (memory, pageCount, dataMerge) ← loadCode file table codePages.toNat memory 0 0 false
  let left := if dataMerge then file.header.initData.size - mergeRoom file
    else file.header.initData.size
  let left := if left.slt 0 then 0 else left
  let pageNum := divRoundUp left.toInt pageSize
  let (memory, byteCount) ← mergeData file table dataMerge memory pageCount
  loadData file table pageNum.toNat memory pageCount byteCount

end Loader

/-- An entry of a page table as the constructor fills it in before `Find` answers. -/
def blankEntry (page : Nat) : TranslationEntry := ⟨page, noPhysicalPage, true, false, false, false⟩

/-- `AddrSpace::AddrSpace(OpenFile*)`. -/
def Kernel.loadExecutable (kernel : Kernel) (file : Executable) :
    Except Fault (AddrSpace × Kernel) := do
  let numPages := file.numPages
  if file.header.isNoff ∧ numPages ≤ numPhysPages ∧ numPages ≤ kernel.physicalPageMap.numClear then
    let (table, kernel) ← kernel.fillTable (fun _ => true) 0 ((List.range numPages).map blankEntry)
    let memory ← loadSegments file table kernel.mainMemory
    return (⟨table, 1⟩, { kernel with mainMemory := memory })
  else .error .assertion

/-- `AddrSpace::AddrSpace(const AddrSpace&)`, which counts a second user in the copy itself. -/
def Kernel.copySpace (kernel : Kernel) (father : AddrSpace) :
    Except Fault (AddrSpace × Kernel) := do
  if stackPages ≤ kernel.physicalPageMap.numClear then
    let (table, kernel) ← kernel.fillTable (fun page => father.stackPagesInit ≤ page) 0
      father.pageTable
    return (⟨table, 1 + 1⟩, kernel)
  else .error .assertion

/-- The indices a loop visits that counts from one bound up to another. -/
def indices (first bound : Int) : List Int :=
  (List.range (bound - first).toNat).map fun offset : Nat => first + offset

/-- The entry at an index of a page table, for an index inside it. -/
def entryAt (table : List TranslationEntry) (index : Int) : Option TranslationEntry :=
  if 0 ≤ index then table[index.toNat]? else none

/-- Both loops of the destructor: the frame of each page is given back and cleared. -/
def Kernel.releasePages (table : List TranslationEntry) : Kernel → List Int → Except Fault Kernel
  | kernel, [] => .ok kernel
  | kernel, index :: rest =>
    match entryAt table index with
    | none => .error (.wildAccess index)
    | some entry => do
      let map ← kernel.physicalPageMap.clear entry.physicalPage
      let number ← frameNumber entry.physicalPage
      Kernel.releasePages table { kernel with
        mainMemory := Blocks.setBlock pageSize kernel.mainMemory number zeroPage
        physicalPageMap := map } rest

/-- The part of the destructor that gives back code and data, when the last user is gone. -/
def Kernel.releaseGlobals (kernel : Kernel) (space : AddrSpace) : Except Fault Kernel :=
  if space.usage - 1 = 0 then
    kernel.releasePages space.pageTable (indices 0 space.stackPagesInit)
  else .ok kernel

/-- `AddrSpace::~AddrSpace`. -/
def Kernel.destroySpace (kernel : Kernel) (space : AddrSpace) : Except Fault Kernel := do
  let kernel ← kernel.releaseGlobals space
  kernel.releasePages space.pageTable (indices space.stackPagesInit space.pageTable.length)

/-- What can happen next, from the point of view of the address spaces. -/
inductive Action where
  /-- A thread made by `Exec` (or the main thread) runs for the first time. -/
  | exec (thread : Thread) (file : Executable)
  /-- The running thread calls `Fork`. -/
  | fork (thread : Thread)
  /-- The running thread finishes and its address space is destroyed. -/
  | exit
  /-- The CPU is given to a thread with an address space, perhaps after threads that have none. -/
  | switchTo (thread : Thread)
  /-- The running thread reads memory. -/
  | load (addr : BitVec 32) (size : Nat)
  /-- The running thread writes memory. -/
  | store (addr : BitVec 32) (size : Nat) (value : BitVec 32)

/-- The running thread and its address space. -/
def Kernel.running (kernel : Kernel) : Option (Thread × AddrSpace) :=
  kernel.currentThread.bind fun thread => (kernel.space thread).map fun space => (thread, space)

/-- The kernel with the bits a translation set in the page table of the running thread. -/
def Kernel.withTable (kernel : Kernel) (thread : Thread) (space : AddrSpace)
    (table : TranslationTable) : Kernel :=
  kernel.setSpace thread (some { space with pageTable := table.entries })

/-- One step of the system. Every exception of a memory reference ends in an `ASSERT`. -/
def step (kernel : Kernel) : Action → Except Fault Kernel
  | .exec thread file =>
    match kernel.space thread with
    | some _ => .error .disabled
    | none => do
      let (space, kernel) ← kernel.loadExecutable file
      return { kernel.setSpace thread (some space) with currentThread := some thread }
  | .fork thread =>
    match kernel.running, kernel.space thread with
    | some (_, father), none => do
      let (space, kernel) ← kernel.copySpace father
      return kernel.setSpace thread (some space)
    | _, _ => .error .disabled
  | .exit =>
    match kernel.running with
    | none => .error .disabled
    | some (thread, space) => do
      let kernel ← kernel.destroySpace space
      return { kernel.setSpace thread none with currentThread := none }
  | .switchTo thread =>
    match kernel.space thread with
    | none => .error .disabled
    | some _ => .ok { kernel with currentThread := some thread }
  | .load addr size =>
    match kernel.running with
    | none => .error .disabled
    | some (thread, space) =>
      match readMem (.pageTable space.pageTable) kernel.mainMemory addr size with
      | .error _ => .error .assertion
      | .ok (_, table) => .ok (kernel.withTable thread space table)
  | .store addr size value =>
    match kernel.running with
    | none => .error .disabled
    | some (thread, space) =>
      match writeMem (.pageTable space.pageTable) kernel.mainMemory addr size value with
      | .error _ => .error .assertion
      | .ok (memory, table) => .ok { kernel.withTable thread space table with mainMemory := memory }

/-- The state `Initialize` leaves. -/
structure Boot (kernel : Kernel) : Prop where
  zeroMemory : kernel.mainMemory = fun _ => 0
  freshMap : ∃ garbage covers, kernel.physicalPageMap = BitMap.new numPhysPages garbage covers
  noSpaces : kernel.space = fun _ => none
  idle : kernel.currentThread = none

end Nachos.Userprog
