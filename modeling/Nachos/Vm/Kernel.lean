import Nachos.Userprog.BitMap
import Nachos.Userprog.Executable
import Nachos.Vm.Map

/-! The virtual memory build: demand paging, the TLB, the backing store, and context switches. -/

namespace Nachos.Vm

/-- `AddrSpace` of the virtual memory build. -/
structure AddrSpace where
  pageTable : List TranslationEntry
  /-- Where the allocator put the page table, counted in entries. -/
  address : Nat
  /-- The executable that `file` names. -/
  file : Executable

/-- A pointer to one entry of the page table of a thread's address space. -/
structure PageRef where
  thread : Thread
  page : Nat
  deriving DecidableEq, Repr

/-- `invertedTable`: the address space of every thread that has one. -/
abbrev InvertedTable := Map Thread AddrSpace

namespace InvertedTable

/-- The page-table entry a pointer points to. -/
def entry (table : InvertedTable) (ref : PageRef) : Option TranslationEntry :=
  (table.get? ref.thread).bind fun space => space.pageTable[ref.page]?

/-- Follow a pointer into a page table. -/
def deref (table : InvertedTable) (ref : PageRef) : Except Fault TranslationEntry :=
  match table.entry ref with
  | none => .error (.wildAccess ref.page)
  | some entry => .ok entry

/-- Change the entry behind a pointer. -/
def modifyEntry (table : InvertedTable) (ref : PageRef)
    (change : TranslationEntry → TranslationEntry) : InvertedTable :=
  table.update ref.thread fun space =>
    { space with pageTable := space.pageTable.modify ref.page change }

/-- The pointer itself as an address, which is the key of the backing store. -/
def entryAddress (table : InvertedTable) (ref : PageRef) : Nat :=
  ((table.get? ref.thread).map AddrSpace.address).getD 0 + ref.page

end InvertedTable

/-- The globals of the virtual memory build and the parts of the machine they work on. -/
structure Kernel where
  tlb : List TranslationEntry
  mainMemory : Memory
  physicalPageMap : BitMap
  invertedTable : InvertedTable
  backingStore : Map Nat Page
  tlbIndex : Nat
  physicalIndex : Nat
  /-- The running thread, while it has an address space. -/
  currentThread : Option Thread

/-- The bytes of a frame. -/
def Kernel.frame (kernel : Kernel) (number : Nat) : Page :=
  Blocks.block pageSize kernel.mainMemory number

/-- Overwrite a frame. -/
def Kernel.setFrame (kernel : Kernel) (number : Nat) (page : Page) : Kernel :=
  { kernel with mainMemory := Blocks.setBlock pageSize kernel.mainMemory number page }

/-- What one TLB entry writes into a page-table entry that has the same frame. -/
def syncEntry (entry cached : TranslationEntry) : TranslationEntry :=
  if entry.physicalPage = cached.physicalPage then
    { entry with dirty := cached.dirty, valid := cached.valid }
  else entry

/-- One turn of the outer loop of `updataPageTables`. -/
def syncTables (table : InvertedTable) (cached : TranslationEntry) : InvertedTable :=
  table.mapObjects fun _ space =>
    { space with pageTable := space.pageTable.map (syncEntry · cached) }

/-- `AddrSpace::updataPageTables`: every TLB entry, valid or not, is copied by frame number. -/
def Kernel.updataPageTables (kernel : Kernel) : Kernel :=
  { kernel with invertedTable := kernel.tlb.foldl syncTables kernel.invertedTable }

section SecondChance

variable {σ : Type}

/--
The loop of both overloads of `AddrSpace::secondChance`.

The table is reached through `entryAt`, and `clearUse` resets the use bit at an index. A round and
one more step are enough, unless the entries in use have no frame and the loop never ends.
-/
def secondChanceLoop (entryAt : σ → Nat → Option TranslationEntry) (clearUse : σ → Nat → σ)
    (range : Nat) : Nat → σ → Nat → Except Fault (σ × Nat)
  | 0, _, _ => .error .diverges
  | fuel + 1, state, index =>
    match entryAt state index with
    | none => .error (.wildAccess index)
    | some entry =>
      if entry.use && entry.valid then
        if index < range then
          let state := if entry.physicalPage ≠ noPhysicalPage then clearUse state index else state
          secondChanceLoop entryAt clearUse range fuel state ((index + 1) % range)
        else .error .assertion
      else .ok (state, index)

end SecondChance

/-- Reset the use bit. -/
def clearUse (entry : TranslationEntry) : TranslationEntry := { entry with use := false }

/-- `AddrSpace::secondChance` over the TLB, which moves its index past the chosen slot. -/
def secondChanceTlb (tlb : List TranslationEntry) (index : Nat) :
    Except Fault (List TranslationEntry × Nat) :=
  secondChanceLoop (fun entries position => entries[position]?)
    (fun entries position => entries.modify position clearUse) tlbSize (tlbSize + 1) tlb index

/-- `AddrSpace::secondChance` over a table of pointers, which leaves its index on the victim. -/
def secondChanceTable (refs : List PageRef) (table : InvertedTable) (index : Nat) :
    Except Fault (InvertedTable × Nat) :=
  secondChanceLoop (fun table position => refs[position]?.bind table.entry)
    (fun table position => match refs[position]? with
      | none => table
      | some ref => table.modifyEntry ref clearUse)
    numPhysPages (numPhysPages + 1) table index

/-- The pages of a table that are in memory, in order. -/
def residentPages (table : List TranslationEntry) : List Nat :=
  (List.range table.length).filter fun page =>
    match table[page]? with
    | none => false
    | some entry => entry.physicalPage != noPhysicalPage

/-- The pointers `AddrSpace::getPhysicalPageTable` collects, thread by thread. -/
def InvertedTable.residentRefs (table : InvertedTable) : List PageRef :=
  table.getKeys.flatMap fun thread =>
    match table.get? thread with
    | none => []
    | some space => (residentPages space.pageTable).map (PageRef.mk thread)

/-- `AddrSpace::getPhysicalPageTable`, whose array has room for `NumPhysPages` pointers. -/
def Kernel.getPhysicalPageTable (kernel : Kernel) : Except Fault (List PageRef) :=
  if kernel.invertedTable.residentRefs.length ≤ numPhysPages then
    .ok kernel.invertedTable.residentRefs
  else .error (.wildAccess numPhysPages)

/-- Choose a page to evict, and remember where the search stopped. -/
def Kernel.chooseVictim (kernel : Kernel) : Except Fault (PageRef × Kernel) := do
  let refs ← kernel.getPhysicalPageTable
  let (table, index) ← secondChanceTable refs kernel.invertedTable kernel.physicalIndex
  match refs[index]? with
  | none => .error (.wildAccess index)
  | some victim => return (victim, { kernel with invertedTable := table, physicalIndex := index })

/-- What both swap operations do to the entry of the page that leaves memory. -/
def evicted (entry : TranslationEntry) : TranslationEntry :=
  { entry with physicalPage := noPhysicalPage, use := true, valid := true }

/-- What bringing a page in does to its entry. -/
def installed (physicalPage : Int) (entry : TranslationEntry) : TranslationEntry :=
  { entry with physicalPage := physicalPage }

/-- Mark the entry of a page that was referenced. -/
def referenced (entry : TranslationEntry) : TranslationEntry :=
  { entry with use := true, valid := true }

/-- `BackingStore::pageOut`. -/
def Kernel.pageOut (kernel : Kernel) (victim : PageRef) : Except Fault Kernel := do
  let out ← kernel.invertedTable.deref victim
  let number ← frameNumber out.physicalPage
  let map ← kernel.physicalPageMap.clear out.physicalPage
  let left := { kernel with
    invertedTable := kernel.invertedTable.modifyEntry victim evicted
    physicalPageMap := map }
  if out.readOnly then return left
  else
    let address := kernel.invertedTable.entryAddress victim
    return { left.setFrame number zeroPage with
      backingStore := kernel.backingStore.insert address (kernel.frame number) }

/-- `BackingStore::pageIn`: the page takes the frame of the victim, and the two swap contents. -/
def Kernel.pageIn (kernel : Kernel) (page victim : PageRef) : Except Fault Kernel := do
  let out ← kernel.invertedTable.deref victim
  let number ← frameNumber out.physicalPage
  let table := ((kernel.invertedTable.modifyEntry page (installed out.physicalPage)).modifyEntry
    victim evicted).modifyEntry page referenced
  let stored := if out.readOnly then kernel.backingStore
    else kernel.backingStore.insert (kernel.invertedTable.entryAddress victim)
      (kernel.frame number)
  let address := kernel.invertedTable.entryAddress page
  match stored.get? address with
  | none => .error (.wildAccess address)
  | some contents =>
    let store ← stored.remove address
    return { kernel.setFrame number contents with invertedTable := table, backingStore := store }

/-- `BackingStore::remove`. -/
def Kernel.removeStored (kernel : Kernel) (address : Nat) : Except Fault Kernel := do
  let store ← kernel.backingStore.remove address
  return { kernel with backingStore := store }

/-- The bytes a page is filled with when it is first brought in. -/
def readPage (file : Executable) (vpn : Nat) : Except Fault Page :=
  let position := BitVec.ofNat 32 (vpn * pageSize)
  let physicalPosition := file.header.code.inFileAddr + position
  let executableSize := file.header.code.size + file.header.initData.size
  if (vpn : Int) < divRoundUp executableSize.toInt pageSize then do
    -- `ReadAt` overwrites the zeros with as many bytes as the file still has.
    let bytes ← file.readAt (BitVec.ofNat 32 pageSize) physicalPosition
    return fun offset => bytes[offset.val]?.getD 0
  else .ok zeroPage

/-- A page of the executable as it is when it can be read: zeros where the file has no bytes. -/
def initialPage (file : Executable) (vpn : Nat) : Page :=
  let position := BitVec.ofNat 32 (vpn * pageSize)
  let physicalPosition := file.header.code.inFileAddr + position
  let executableSize := file.header.code.size + file.header.initData.size
  if (vpn : Int) < divRoundUp executableSize.toInt pageSize then
    fun offset => (file.byteAt (physicalPosition.toInt + offset)).getD 0
  else zeroPage

/-- What `AddrSpace::FindPage` came up with. -/
inductive Found where
  /-- A frame that was free and is now marked. -/
  | free (number : Nat)
  /-- The page whose frame has to be taken. -/
  | victim (page : PageRef)

/-- `AddrSpace::FindPage`. -/
def Kernel.findPage (kernel : Kernel) : Except Fault (Found × Kernel) :=
  match kernel.physicalPageMap.find with
  | some (number, map) => .ok (.free number, { kernel with physicalPageMap := map })
  | none => do
    let (victim, kernel) ← kernel.chooseVictim
    return (.victim victim, kernel)

/-- The frame the executable branch of the handler writes to, after the eviction it may need. -/
def Kernel.availablePage (kernel : Kernel) : Except Fault (Nat × Kernel) := do
  let (found, kernel) ← kernel.findPage
  match found with
  | .free number => return (number, kernel)
  | .victim page =>
    let out ← kernel.invertedTable.deref page
    let number ← frameNumber out.physicalPage
    let kernel ← kernel.pageOut page
    return (number, kernel)

/-- The branch of the handler that fills the page from the executable. -/
def Kernel.loadPage (kernel : Kernel) (page : PageRef) (file : Executable) :
    Except Fault Kernel := do
  let (number, kernel) ← kernel.availablePage
  let contents ← readPage file page.page
  let table := kernel.invertedTable.modifyEntry page (installed number)
  return { kernel.setFrame number contents with invertedTable := table }

/-- The branch of the handler that fetches the page from the backing store. -/
def Kernel.swapPage (kernel : Kernel) (page : PageRef) : Except Fault Kernel := do
  let (victim, kernel) ← kernel.chooseVictim
  kernel.pageIn page victim

/-- Does the handler look for a page that is not in memory in the backing store? -/
def fromStore (entry : TranslationEntry) : Bool := entry.valid && entry.dirty && !entry.readOnly

/-- Bring a page into memory unless it is there already. -/
def Kernel.bringIn (kernel : Kernel) (page : PageRef) (file : Executable) : Except Fault Kernel := do
  let entry ← kernel.invertedTable.deref page
  if entry.physicalPage = noPhysicalPage then
    if fromStore entry then kernel.swapPage page else kernel.loadPage page file
  else return kernel

/-- `AddrSpace::PageFaultException` of a thread at the address in `BadVAddrReg`. -/
def Kernel.pageFaultException (kernel : Kernel) (thread : Thread) (addr : BitVec 32) :
    Except Fault Kernel := do
  let kernel := kernel.updataPageTables
  let page : PageRef := ⟨thread, virtualPageNumber addr⟩
  let (tlb, slot) ← secondChanceTlb kernel.tlb kernel.tlbIndex
  let kernel := { kernel with tlb := tlb, tlbIndex := (slot + 1) % tlbSize }
  match kernel.invertedTable.get? thread with
  | none => .error (.wildAccess thread)
  | some space =>
    let kernel ← kernel.bringIn page space.file
    let table := kernel.invertedTable.modifyEntry page referenced
    let entry ← table.deref page
    return { kernel with invertedTable := table, tlb := kernel.tlb.set slot entry }

/-- `AddrSpace::SaveState`. -/
def Kernel.saveState (kernel : Kernel) : Kernel := kernel.updataPageTables

/-- `AddrSpace::RestoreState`. -/
def Kernel.restoreState (kernel : Kernel) : Kernel :=
  { kernel with tlb := kernel.tlb.map fun entry => { entry with valid := false } }

/-- The part of `Scheduler::Run` before the switch: a thread with an address space saves it. -/
def Kernel.leave (kernel : Kernel) : Kernel :=
  match kernel.currentThread with
  | none => kernel
  | some _ => kernel.saveState

/-- The part of `Scheduler::Run` after the switch to a thread with an address space. -/
def Kernel.arrive (kernel : Kernel) (thread : Thread) : Kernel :=
  { kernel with currentThread := some thread }.restoreState

/-- An entry of a page table as the constructors fill it in. -/
def freshEntry (page : Nat) (readOnly : Bool) : TranslationEntry :=
  ⟨page, noPhysicalPage, false, readOnly, false, false⟩

/-- `AddrSpace::AddrSpace(OpenFile*, const char*)`; both branches set `readOnly` to false. -/
def AddrSpace.ofExecutable (file : Executable) (address : Nat) : AddrSpace :=
  ⟨(List.range file.numPages).map (freshEntry · false), address, file⟩

/-- `AddrSpace::AddrSpace(const AddrSpace&, Thread*)`. -/
def AddrSpace.ofFather (father : AddrSpace) (address : Nat) : AddrSpace :=
  ⟨father.pageTable.mapIdx fun page entry => freshEntry page entry.readOnly, address, father.file⟩

/-- The allocator returns memory that overlaps no page table still in use. -/
def Kernel.allocates (kernel : Kernel) (address count : Nat) : Bool :=
  kernel.invertedTable.entries.all fun pair =>
    address + count ≤ pair.2.address || pair.2.address + pair.2.pageTable.length ≤ address

/-- Register a new address space under its thread, as both constructors end by doing. -/
def Kernel.register (kernel : Kernel) (thread : Thread) (space : AddrSpace) :
    Except Fault Kernel :=
  if thread ∉ kernel.invertedTable.getKeys ∧
      kernel.allocates space.address space.pageTable.length then
    .ok { kernel with invertedTable := kernel.invertedTable.insert thread space }
  else .error .disabled

/-- The loop of `AddrSpace::~AddrSpace` over the entries from an address on. -/
def Kernel.releasePages (kernel : Kernel) : List TranslationEntry → Nat → Except Fault Kernel
  | [], _ => .ok kernel
  | entry :: rest, address => do
    if entry.physicalPage ≠ noPhysicalPage then
      let map ← kernel.physicalPageMap.clear entry.physicalPage
      let number ← frameNumber entry.physicalPage
      ({ kernel with physicalPageMap := map }.setFrame number zeroPage).releasePages rest
        (address + 1)
    else if entry.valid && entry.dirty then
      (← kernel.removeStored address).releasePages rest (address + 1)
    else kernel.releasePages rest (address + 1)

/-- `AddrSpace::~AddrSpace` of the address space of a thread. -/
def Kernel.destroy (kernel : Kernel) (thread : Thread) : Except Fault Kernel :=
  match kernel.invertedTable.get? thread with
  | none => .error (.wildAccess thread)
  | some space => do
    let kernel ← kernel.releasePages space.pageTable space.address
    let table ← kernel.invertedTable.remove thread
    return { kernel with invertedTable := table }

/-- What can happen next, from the point of view of the paging code. -/
inductive Action where
  /-- A thread made by `Exec` (or the main thread) runs for the first time. -/
  | exec (thread : Thread) (file : Executable) (address : Nat)
  /-- The running thread calls `Fork`. -/
  | fork (thread : Thread) (address : Nat)
  /-- The running thread finishes and its address space is destroyed. -/
  | exit
  /-- The CPU is given to a thread with an address space, perhaps after threads that have none. -/
  | switchTo (thread : Thread)
  /-- The running thread tries to read memory. -/
  | load (addr : BitVec 32) (size : Nat)
  /-- The running thread tries to write memory. -/
  | store (addr : BitVec 32) (size : Nat) (value : BitVec 32)

/-- `ExceptionHandler` for a memory reference: only a page fault is survived. -/
def Kernel.raise (kernel : Kernel) (thread : Thread) (addr : BitVec 32) :
    Trap → Except Fault Kernel
  | .exception .pageFault => kernel.pageFaultException thread addr
  | _ => .error .assertion

/-- The machine with the bits a translation set in the TLB. -/
def Kernel.withTable (kernel : Kernel) (table : TranslationTable) : Kernel :=
  { kernel with tlb := table.entries }

/-- One step of the system. A reference that faults runs the handler and is tried again later. -/
def step (kernel : Kernel) : Action → Except Fault Kernel
  | .exec thread file address =>
    if file.header.isNoff then
      match kernel.leave.register thread (AddrSpace.ofExecutable file address) with
      | .error fault => .error fault
      | .ok kernel => .ok (kernel.arrive thread)
    else .error .assertion
  | .fork thread address =>
    match kernel.currentThread.bind kernel.invertedTable.get? with
    | none => .error .disabled
    | some father => kernel.register thread (father.ofFather address)
  | .exit =>
    match kernel.currentThread with
    | none => .error .disabled
    | some thread =>
      match kernel.destroy thread with
      | .error fault => .error fault
      | .ok kernel => .ok { kernel with currentThread := none }
  | .switchTo thread =>
    if thread ∈ kernel.invertedTable.getKeys then
      .ok (kernel.leave.arrive thread)
    else .error .disabled
  | .load addr size =>
    match kernel.currentThread with
    | none => .error .disabled
    | some thread =>
      match readMem (.tlb kernel.tlb) kernel.mainMemory addr size with
      | .error trap => kernel.raise thread addr trap
      | .ok (_, table) => .ok (kernel.withTable table)
  | .store addr size value =>
    match kernel.currentThread with
    | none => .error .disabled
    | some thread =>
      match writeMem (.tlb kernel.tlb) kernel.mainMemory addr size value with
      | .error trap => kernel.raise thread addr trap
      | .ok (memory, table) => .ok { kernel.withTable table with mainMemory := memory }

/-- The state `Initialize` leaves: the TLB slots are only known to be invalid. -/
structure Boot (kernel : Kernel) : Prop where
  tlbLength : kernel.tlb.length = tlbSize
  tlbInvalid : ∀ entry ∈ kernel.tlb, entry.valid = false
  zeroMemory : kernel.mainMemory = fun _ => 0
  freshMap : ∃ garbage covers, kernel.physicalPageMap = BitMap.new numPhysPages garbage covers
  noSpaces : kernel.invertedTable = Map.empty
  emptyStore : kernel.backingStore = Map.empty
  tlbStart : kernel.tlbIndex = 0
  physicalStart : kernel.physicalIndex = 0
  idle : kernel.currentThread = none

end Nachos.Vm
