import Nachos.Lib.Blocks

/-! The simulated hardware: translation entries, main memory, and address translation. -/

namespace Nachos

/-- A simulated byte; `mainMemory` is an array of `char`. -/
abbrev Byte := BitVec 8

/-- A kernel thread, named by its address. -/
abbrev Thread := Nat

/-- `PageSize`, which is the sector size of the simulated disk. -/
def pageSize : Nat := 128

/-- `NumPhysPages`. -/
def numPhysPages : Nat := 32

/-- `MemorySize`. -/
def memorySize : Nat := numPhysPages * pageSize

/-- `TLBSize`. -/
def tlbSize : Nat := 4

/-- `UserStackSize`. -/
def userStackSize : Nat := 1024

/-- `NO_PHYSYCAL_PAGE`, the frame number of a page that is not in memory. -/
def noPhysicalPage : Int := -1

instance : NeZero pageSize := ⟨by decide⟩

/-- The contents of one page or frame. -/
abbrev Page := Fin pageSize → Byte

/-- `bzero` of a whole page. -/
def zeroPage : Page := fun _ => 0

/-- Physical memory, indexed by physical address. -/
abbrev Memory := Nat → Byte

/-- Ways in which the kernel itself stops making sense. -/
inductive Fault where
  /-- An `ASSERT` failed, so Nachos aborts. -/
  | assertion
  /-- An array was indexed outside its bounds, or a pointer with no object was followed. -/
  | wildAccess (index : Int)
  /-- A loop never ends. -/
  | diverges
  /-- The environment never offers this action in this state. -/
  | disabled
  deriving DecidableEq, Repr

/-- The integer divisions of `divRoundUp` truncate towards zero. -/
def divRoundUp (n s : Int) : Int := n.tdiv s + if n.tmod s > 0 then 1 else 0

/-- `TranslationEntry`, used both for page tables and for the TLB. -/
structure TranslationEntry where
  virtualPage : Int
  physicalPage : Int
  valid : Bool
  readOnly : Bool
  use : Bool
  dirty : Bool
  deriving DecidableEq, Repr

/-- The frame behind a `physicalPage`, when it lies inside `mainMemory`. -/
def frameNumber (physicalPage : Int) : Except Fault Nat :=
  if 0 ≤ physicalPage ∧ physicalPage < numPhysPages then .ok physicalPage.toNat
  else .error (.wildAccess physicalPage)

/-- `ExceptionType`, without the success value `NoException`. -/
inductive ExceptionType where
  | syscall
  | pageFault
  | readOnly
  | busError
  | addressError
  | overflow
  | illegalInstr
  deriving DecidableEq, Repr

/-- How a translation or an access ends when it does not succeed. -/
inductive Trap where
  /-- The exception that is raised to the kernel. -/
  | exception (which : ExceptionType)
  /-- An `ASSERT` of the simulated hardware failed. -/
  | assertion
  deriving DecidableEq, Repr

/-- The machine has either a TLB or a page table, but not both. -/
inductive TranslationTable where
  | tlb (entries : List TranslationEntry)
  | pageTable (entries : List TranslationEntry)
  deriving DecidableEq, Repr

/-- The entries of the table, whichever kind it is. -/
def TranslationTable.entries : TranslationTable → List TranslationEntry
  | .tlb entries => entries
  | .pageTable entries => entries

/-- The same kind of table with other entries. -/
def TranslationTable.withEntries : TranslationTable → List TranslationEntry → TranslationTable
  | .tlb _, entries => .tlb entries
  | .pageTable _, entries => .pageTable entries

/-- `(unsigned) virtAddr / PageSize`. -/
def virtualPageNumber (virtAddr : BitVec 32) : Nat := virtAddr.toNat / pageSize

/-- `(unsigned) virtAddr % PageSize`. -/
def pageOffset (virtAddr : BitVec 32) : Nat := virtAddr.toNat % pageSize

/-- The alignment test at the head of `Machine::Translate`. -/
def misaligned (virtAddr : BitVec 32) (size : Nat) : Bool :=
  (size == 4 && virtAddr &&& 3#32 != 0#32) || (size == 2 && virtAddr &&& 1#32 != 0#32)

/-- Does this TLB entry translate the page? -/
def TranslationEntry.matchesPage (vpn : Nat) (entry : TranslationEntry) : Bool :=
  entry.valid && entry.virtualPage == (vpn : Int)

/-- The position of the entry `Machine::Translate` uses for a page. -/
def findEntry (table : TranslationTable) (vpn : Nat) : Except Trap Nat :=
  match table with
  | .pageTable entries =>
    match entries[vpn]? with
    | none => .error (.exception .addressError)
    | some entry => if entry.valid then .ok vpn else .error (.exception .pageFault)
  | .tlb entries =>
    match entries.findIdx? (TranslationEntry.matchesPage vpn) with
    | none => .error (.exception .pageFault)
    | some position => .ok position

/-- The use and dirty bits the hardware sets on a reference. -/
def TranslationEntry.touch (writing : Bool) (entry : TranslationEntry) : TranslationEntry :=
  { entry with use := true, dirty := entry.dirty || writing }

/-- The rest of `Machine::Translate` once an entry has been found at a position. -/
def useEntry (table : TranslationTable) (position : Nat) (virtAddr : BitVec 32) (size : Nat)
    (writing : Bool) : Except Trap (Nat × TranslationTable) :=
  match table.entries[position]? with
  | none => .error .assertion
  | some entry =>
    if entry.readOnly && writing then .error (.exception .readOnly)
    -- The frame is compared as an unsigned number, so a negative one is too large.
    else if entry.physicalPage < 0 || (numPhysPages : Int) ≤ entry.physicalPage then
      .error (.exception .busError)
    else
      let physAddr := entry.physicalPage.toNat * pageSize + pageOffset virtAddr
      if physAddr + size ≤ memorySize then
        .ok (physAddr, table.withEntries (table.entries.modify position (·.touch writing)))
      else .error .assertion

/-- `Machine::Translate`: the physical address, and the table with its reference bits set. -/
def translate (table : TranslationTable) (virtAddr : BitVec 32) (size : Nat) (writing : Bool) :
    Except Trap (Nat × TranslationTable) :=
  if misaligned virtAddr size then .error (.exception .addressError)
  else
    match findEntry table (virtualPageNumber virtAddr) with
    | .error trap => .error trap
    | .ok position => useEntry table position virtAddr size writing

/-- The value `Machine::ReadMem` makes of the bytes it reads, lowest address first. -/
def decodeBytes : List Byte → Option (BitVec 32)
  -- A single `char` is signed on the host, while a half word is read as unsigned.
  | [b0] => some (b0.signExtend 32)
  | [b0, b1] => some ((b1 ++ b0).setWidth 32)
  | [b0, b1, b2, b3] => some (b3 ++ b2 ++ b1 ++ b0)
  | _ => none

/-- The bytes `Machine::WriteMem` stores for a value, lowest address first. -/
def encodeBytes (size : Nat) (value : BitVec 32) : Option (List Byte) :=
  match size with
  | 1 => some [value.extractLsb' 0 8]
  | 2 => some [value.extractLsb' 0 8, value.extractLsb' 8 8]
  | 4 => some [value.extractLsb' 0 8, value.extractLsb' 8 8, value.extractLsb' 16 8,
      value.extractLsb' 24 8]
  | _ => none

/-- `Machine::ReadMem`: the value read, and the table with its reference bits set. -/
def readMem (table : TranslationTable) (mainMemory : Memory) (addr : BitVec 32) (size : Nat) :
    Except Trap (BitVec 32 × TranslationTable) :=
  match translate table addr size false with
  | .error trap => .error trap
  | .ok (physicalAddress, table) =>
    match decodeBytes (Blocks.cells mainMemory physicalAddress size) with
    | none => .error .assertion
    | some value => .ok (value, table)

/-- `Machine::WriteMem`: the new memory, and the table with its reference bits set. -/
def writeMem (table : TranslationTable) (mainMemory : Memory) (addr : BitVec 32) (size : Nat)
    (value : BitVec 32) : Except Trap (Memory × TranslationTable) :=
  match translate table addr size true with
  | .error trap => .error trap
  | .ok (physicalAddress, table) =>
    match encodeBytes size value with
    | none => .error .assertion
    | some bytes => .ok (Blocks.setCells mainMemory physicalAddress bytes, table)

end Nachos
