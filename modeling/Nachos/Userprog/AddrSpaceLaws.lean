import Nachos.Machine.TranslateLaws
import Nachos.Userprog.AddrSpace

/-! What the constructors and the destructor of the linear build do to frames, said once. -/

namespace Nachos.Userprog

/-- The part of an address space that decides which frames it uses and which it gives back. -/
structure Layout where
  frames : List Int
  usage : Int

/-- The first page of the stack. -/
def Layout.stackPagesInit (layout : Layout) : Int := layout.frames.length - stackPages

/-- Forget the bits that references set. -/
def AddrSpace.layout (space : AddrSpace) : Layout :=
  ⟨space.pageTable.map TranslationEntry.physicalPage, space.usage⟩

/-- The layout of the address space of a thread. -/
def Kernel.layout (kernel : Kernel) (thread : Thread) : Option Layout :=
  (kernel.space thread).map AddrSpace.layout

/-- The bytes of a frame. -/
def Kernel.frame (kernel : Kernel) (number : Nat) : Page :=
  Blocks.block pageSize kernel.mainMemory number

/-- Is this the frame of a page that got a frame of its own? -/
def Takes (frames : List Int) (own : Nat → Bool) (number : Nat) : Prop :=
  ∃ page : Nat, frames[page]? = some (number : Int) ∧ own page = true

/-- What the loop of the constructors has done after its last turn. -/
structure Filled (before after : Kernel) (own : Nat → Bool) (old new : List Int) : Prop where
  length : new.length = old.length
  kept : ∀ page : Nat, own page = false → new[page]? = old[page]?
  taken : ∀ (page : Nat) (frame : Int), new[page]? = some frame → own page = true →
    ∃ number : Nat, frame = number ∧ number < numPhysPages ∧
      before.physicalPageMap.testBit number = false
  apart : ∀ (page other : Nat) (frame : Int), new[page]? = some frame → new[other]? = some frame →
    own page = true → own other = true → page = other
  bits : ∀ number, number < numPhysPages → (after.physicalPageMap.testBit number = true ↔
    before.physicalPageMap.testBit number = true ∨ Takes new own number)
  frames : ∀ number, number < numPhysPages → before.physicalPageMap.testBit number = true →
    after.frame number = before.frame number
  numBits : after.physicalPageMap.numBits = numPhysPages

/-- Taking a frame marks it, and the frame was not marked before. -/
theorem Kernel.takeFrame_spec {before after : Kernel} {number : Nat}
    (bits : before.physicalPageMap.numBits = numPhysPages)
    (taken : before.takeFrame = .ok (number, after)) :
    number < numPhysPages ∧ before.physicalPageMap.testBit number = false ∧
      after = { before with
        mainMemory := Blocks.setBlock pageSize before.mainMemory number zeroPage
        physicalPageMap := before.physicalPageMap.markBit number } := by
  unfold Kernel.takeFrame at taken
  split at taken
  · simp at taken
  · rename_i found_number map found
    simp only [Except.ok.injEq, Prod.mk.injEq] at taken
    obtain ⟨rfl, rfl⟩ := taken
    obtain ⟨inside, clear, marked, -⟩ := BitMap.find_spec found
    exact ⟨bits ▸ inside, clear, by rw [marked]⟩

/-- The loop may begin with a page that takes a frame of its own. -/
theorem Filled.take {before middle after : Kernel} {own : Nat → Bool} {number : Nat}
    {frame : Int} {old new : List Int} (bits : before.physicalPageMap.numBits = numPhysPages)
    (first : own 0 = true) (taken : before.takeFrame = .ok (number, middle))
    (rest : Filled middle after (fun page => own (page + 1)) old new) :
    Filled before after own (frame :: old) ((number : Int) :: new) := by
  obtain ⟨inside, clear, rfl⟩ := Kernel.takeFrame_spec bits taken
  -- The rest of the loop sees the frame as marked, so it never takes it again.
  have marked : ∀ other, other < numPhysPages →
      (before.physicalPageMap.markBit number).testBit other =
        (decide (number = other) || before.physicalPageMap.testBit other) :=
    fun other small => BitMap.testBit_markBit _ _ _ (by rw [bits]; exact small)
  have later : ∀ (page : Nat) (value : Int), new[page]? = some value → own (page + 1) = true →
      ∃ other : Nat, value = other ∧ other < numPhysPages ∧ other ≠ number ∧
        before.physicalPageMap.testBit other = false := by
    intro page value located mine
    obtain ⟨other, named, small, free⟩ := rest.taken page value located mine
    simp only [marked other small, Bool.or_eq_false_iff, decide_eq_false_iff_not] at free
    exact ⟨other, named, small, Ne.symm free.1, free.2⟩
  refine ⟨by simp [rest.length], ?_, ?_, ?_, ?_, ?_, rest.numBits⟩
  · intro page keeps
    cases page with
    | zero => simp [first] at keeps
    | succ page => simpa using rest.kept page keeps
  · intro page value located mine
    cases page with
    | zero => exact ⟨number, by simpa using located.symm, inside, clear⟩
    | succ page =>
      obtain ⟨other, named, small, -, free⟩ := later page value (by simpa using located) mine
      exact ⟨other, named, small, free⟩
  · intro page other value located located' mine mine'
    -- The first page differs from the later ones, which differ among themselves.
    cases page with
    | zero =>
      cases other with
      | zero => rfl
      | succ other =>
        obtain ⟨late, named, -, differ, -⟩ := later other value (by simpa using located') mine'
        have here : (number : Int) = value := by simpa using located
        exact absurd (by omega) differ
    | succ page =>
      cases other with
      | zero =>
        obtain ⟨late, named, -, differ, -⟩ := later page value (by simpa using located) mine
        have here : (number : Int) = value := by simpa using located'
        exact absurd (by omega) differ
      | succ other =>
        have same := rest.apart page other value (by simpa using located) (by simpa using located')
          mine mine'
        omega
  · intro other small
    rw [rest.bits other small, marked other small]
    simp only [Bool.or_eq_true, decide_eq_true_eq]
    constructor
    · rintro ((rfl | set) | ⟨page, located, mine⟩)
      · exact .inr ⟨0, by simp, first⟩
      · exact .inl set
      · exact .inr ⟨page + 1, by simpa using located, mine⟩
    · rintro (set | ⟨page, located, mine⟩)
      · exact .inl (.inr set)
      · cases page with
        | zero =>
          have named : (number : Int) = other := by simpa using located
          exact .inl (.inl (by omega))
        | succ page => exact .inr ⟨page, by simpa using located, mine⟩
  · intro other small set
    have differ : other ≠ number := fun same => by simp [same, clear] at set
    rw [rest.frames other small (by rw [marked other small, set, Bool.or_true])]
    exact Blocks.block_setBlock_ne _ differ _

/-- The loop may begin with a page that keeps the frame it has. -/
theorem Filled.keep {before after : Kernel} {own : Nat → Bool} {frame : Int} {old new : List Int}
    (first : own 0 = false) (rest : Filled before after (fun page => own (page + 1)) old new) :
    Filled before after own (frame :: old) (frame :: new) := by
  refine ⟨by simp [rest.length], ?_, ?_, ?_, ?_, rest.frames, rest.numBits⟩
  · intro page keeps
    cases page with
    | zero => rfl
    | succ page => simpa using rest.kept page keeps
  · intro page value located mine
    cases page with
    | zero => simp [first] at mine
    | succ page => exact rest.taken page value (by simpa using located) mine
  · intro page other value located located' mine mine'
    cases page with
    | zero => simp [first] at mine
    | succ page =>
      cases other with
      | zero => simp [first] at mine'
      | succ other =>
        have same := rest.apart page other value (by simpa using located) (by simpa using located')
          mine mine'
        omega
  · intro number small
    rw [rest.bits number small]
    refine or_congr_right ⟨?_, ?_⟩
    · rintro ⟨page, located, mine⟩
      exact ⟨page + 1, by simpa using located, mine⟩
    · rintro ⟨page, located, mine⟩
      cases page with
      | zero => simp [first] at mine
      | succ page => exact ⟨page, by simpa using located, mine⟩

/-- The loop of the constructors, from any page on. -/
theorem Kernel.fillTable_spec {fresh : Nat → Bool} {entries : List TranslationEntry} :
    ∀ {before after : Kernel} {start : Nat} {table : List TranslationEntry},
      before.physicalPageMap.numBits = numPhysPages →
      before.fillTable fresh start entries = .ok (table, after) →
      Filled before after (fun page => fresh (start + page))
        (entries.map TranslationEntry.physicalPage)
        (table.map TranslationEntry.physicalPage) ∧
      after.space = before.space ∧ after.currentThread = before.currentThread := by
  -- One turn of the loop per entry, with the page number counting up.
  induction entries with
  | nil =>
    intro before after start table bits filled
    simp only [Kernel.fillTable, Except.ok.injEq, Prod.mk.injEq] at filled
    obtain ⟨rfl, rfl⟩ := filled
    exact ⟨⟨rfl, by simp, by simp, by simp, by simp [Takes], fun _ _ _ => rfl, bits⟩, rfl, rfl⟩
  | cons entry entries ih =>
    intro before after start table bits filled
    have shift : (fun page => fresh (start + 1 + page)) = fun page => fresh (start + (page + 1)) := by
      funext page
      rw [Nat.add_assoc, Nat.add_comm 1]
    rw [Kernel.fillTable] at filled
    split at filled
    · rename_i mine
      obtain ⟨⟨number, middle⟩, taken, filled⟩ := Runs.bind_eq_ok.mp filled
      obtain ⟨⟨rest, last⟩, later, filled⟩ := Runs.bind_eq_ok.mp filled
      simp only [Pure.pure, Except.pure, Except.ok.injEq, Prod.mk.injEq] at filled
      obtain ⟨rfl, rfl⟩ := filled
      obtain ⟨-, -, same⟩ := Kernel.takeFrame_spec bits taken
      obtain ⟨remaining, spaces, running⟩ := ih (by rw [same]; exact bits) later
      rw [shift] at remaining
      exact ⟨remaining.take bits mine taken, by rw [spaces, same], by rw [running, same]⟩
    · rename_i keeps
      obtain ⟨⟨rest, last⟩, later, filled⟩ := Runs.bind_eq_ok.mp filled
      simp only [Pure.pure, Except.pure, Except.ok.injEq, Prod.mk.injEq] at filled
      obtain ⟨rfl, rfl⟩ := filled
      obtain ⟨remaining, unchanged⟩ := ih bits later
      rw [shift] at remaining
      exact ⟨remaining.keep (by simpa using keeps), unchanged⟩

/-- A transfer that leaves every frame outside the table alone. -/
def Confined (frames : List Int) (before after : Memory) : Prop :=
  ∀ number : Nat, (number : Int) ∉ frames →
    Blocks.block pageSize after number = Blocks.block pageSize before number

/-- Transfers may follow each other. -/
theorem Confined.trans {frames : List Int} {before middle after : Memory}
    (first : Confined frames before middle) (second : Confined frames middle after) :
    Confined frames before after :=
  fun number outside => (second number outside).trans (first number outside)

/-- The frame of a page of a table is one of its frames. -/
theorem frameOf_ok {table : List TranslationEntry} {page number : Nat}
    (found : frameOf table page = .ok number) :
    page < table.length ∧ (number : Int) ∈ table.map TranslationEntry.physicalPage := by
  unfold frameOf at found
  split at found
  · simp at found
  · rename_i entry located
    obtain ⟨named, -⟩ := frameNumber_ok found
    refine ⟨(List.getElem?_eq_some_iff.mp located).1, ?_⟩
    rw [← named]
    exact List.mem_map_of_mem (List.mem_of_getElem? located)

/-- No more bytes are read than were asked for. -/
theorem readAt_length {file : Executable} {numBytes position : BitVec 32} {bytes : List Byte}
    (read : file.readAt numBytes position = .ok bytes) : bytes.length ≤ numBytes.toInt.toNat := by
  unfold Executable.readAt at read
  split at read
  · simp only [Except.ok.injEq] at read
    rw [← read, List.length_take]
    exact Nat.min_le_left _ _
  · simp at read

/-- A transfer into one page of a table, short enough for the page, is confined to the table. -/
theorem confined_setCells {table : List TranslationEntry} {page number : Nat} (memory : Memory)
    (offset : Nat) (bytes : List Byte) (found : frameOf table page = .ok number)
    (fits : offset + bytes.length ≤ pageSize) :
    Confined (table.map TranslationEntry.physicalPage) memory
      (Blocks.setCells memory (number * pageSize + offset) bytes) := by
  intro other outside
  have differ : other ≠ number := fun same => outside (same ▸ (frameOf_ok found).2)
  rw [Blocks.block_setCells memory fits, if_neg differ]

section Loader

variable {file : Executable} {table : List TranslationEntry}

/-- The remainder of a size by the page size, with the sign of the size. -/
theorem srem_pageBytes (size : BitVec 32) :
    (size.srem pageBytes).toInt < 128 ∧ (0 ≤ size.toInt → 0 ≤ (size.srem pageBytes).toInt) := by
  rw [BitVec.toInt_srem]
  have page : pageBytes.toInt = 128 := by decide
  rw [page]
  exact ⟨Int.tmod_lt_of_pos _ (by decide), fun positive => Int.tmod_nonneg _ positive⟩

/-- Reading the code segment stays inside the frames of the table. -/
theorem loadCode_confined {count : Nat} :
    ∀ {memory after : Memory} {start pageCount : Nat} {byteCount : BitVec 32}
      {dataMerge merges : Bool},
      loadCode file table count memory start byteCount dataMerge = .ok (after, pageCount, merges) →
      Confined (table.map TranslationEntry.physicalPage) memory after ∧
        (count = 0 → merges = dataMerge) := by
  -- Each turn reads at most one page into the frame it has just looked up.
  induction count with
  | zero =>
    intro memory after start pageCount byteCount dataMerge merges loaded
    simp only [loadCode, Except.ok.injEq, Prod.mk.injEq] at loaded
    obtain ⟨rfl, -, rfl⟩ := loaded
    exact ⟨fun _ _ => rfl, fun _ => rfl⟩
  | succ count ih =>
    intro memory after start pageCount byteCount dataMerge merges loaded
    rw [loadCode] at loaded
    obtain ⟨number, found, loaded⟩ := Runs.bind_eq_ok.mp loaded
    obtain ⟨bytes, read, loaded⟩ := Runs.bind_eq_ok.mp loaded
    refine ⟨?_, by simp⟩
    have short : bytes.length ≤ pageSize := by
      refine Nat.le_trans (readAt_length read) ?_
      have remainder := (srem_pageBytes file.header.code.size).1
      have page : pageBytes.toInt = 128 := by decide
      rw [pageSize]
      split <;> omega
    exact (confined_setCells memory 0 bytes found (by omega)).trans (ih loaded).1

/-- The data read into the last page of the code segment stays inside it. -/
theorem mergeData_confined {memory after : Memory} {pageCount : Nat} {byteCount : BitVec 32}
    (positive : 0 < file.header.code.size.toInt)
    (data : file.header.initData.size ≠ 0)
    (merged : mergeData file table true memory pageCount = .ok (after, byteCount)) :
    Confined (table.map TranslationEntry.physicalPage) memory after ∧
      byteCount.toInt ≤ 128 ∧ byteCount.toInt ≤ file.header.initData.size.toInt := by
  rw [mergeData, if_pos (by simpa using data)] at merged
  obtain ⟨number, found, merged⟩ := Runs.bind_eq_ok.mp merged
  obtain ⟨bytes, read, merged⟩ := Runs.bind_eq_ok.mp merged
  simp only [Pure.pure, Except.pure, Except.ok.injEq, Prod.mk.injEq] at merged
  obtain ⟨rfl, rfl⟩ := merged
  obtain ⟨small, natural⟩ := srem_pageBytes file.header.code.size
  have natural := natural (by omega)
  have room : (mergeRoom file).toInt = 128 - (file.header.code.size.srem pageBytes).toInt := by
    have page : pageBytes.toInt = 128 := by decide
    rw [mergeRoom, BitVec.toInt_sub, page, Int.bmod_def]
    omega
  have offset : ((file.header.code.size.srem pageBytes).toNat : Int) =
      (file.header.code.size.srem pageBytes).toInt := by
    rw [BitVec.toInt_eq_toNat_bmod, Int.bmod_def] at natural ⊢
    omega
  -- The smaller of the room and the data is read.
  have least : (if file.header.initData.size.slt (mergeRoom file) = true then
      file.header.initData.size else mergeRoom file).toInt =
        min file.header.initData.size.toInt (mergeRoom file).toInt := by
    rw [BitVec.slt_eq_decide]
    simp only [decide_eq_true_eq]
    split <;> omega
  have length := readAt_length read
  rw [least] at length ⊢
  refine ⟨confined_setCells memory _ bytes found ?_, by omega, by omega⟩
  rw [pageSize]
  omega

/-- Reading the data segment stays inside the frames of the table. -/
theorem loadData_confined (small : table.length ≤ numPhysPages) {count : Nat} :
    ∀ {memory after : Memory} {pageCount : Nat} {byteCount : BitVec 32},
      byteCount.toInt ≤ 128 * pageCount + 128 →
      byteCount.toInt - file.header.initData.size.toInt ≤ 128 * pageCount + 128 →
      loadData file table count memory pageCount byteCount = .ok after →
      Confined (table.map TranslationEntry.physicalPage) memory after := by
  -- The byte count stays close to the page count, so the counters never wrap around.
  induction count with
  | zero =>
    intro memory after pageCount byteCount _ _ loaded
    simp only [loadData, Except.ok.injEq] at loaded
    exact fun _ _ => by rw [loaded]
  | succ count ih =>
    intro memory after pageCount byteCount bound ahead loaded
    rw [loadData] at loaded
    obtain ⟨number, found, loaded⟩ := Runs.bind_eq_ok.mp loaded
    obtain ⟨bytes, read, loaded⟩ := Runs.bind_eq_ok.mp loaded
    have inside := (frameOf_ok found).1
    have frames : numPhysPages = 32 := rfl
    have page : pageBytes.toInt = 128 := by decide
    have low := byteCount.le_toInt
    have counted : (byteCount + pageBytes).toInt = byteCount.toInt + 128 := by
      rw [BitVec.toInt_add, page, Int.bmod_def]
      omega
    have back : byteCount + pageBytes - pageBytes = byteCount := BitVec.add_sub_cancel _ _
    have short : bytes.length ≤ pageSize := by
      refine Nat.le_trans (readAt_length read) ?_
      rw [back, BitVec.slt_eq_decide, counted, pageSize]
      simp only [decide_eq_true_eq]
      split
      · have high := file.header.initData.size.toInt_lt
        rw [BitVec.toInt_sub, Int.bmod_def]
        omega
      · omega
    refine (confined_setCells memory 0 bytes found (by omega)).trans (ih ?_ ?_ loaded)
    · rw [counted]
      omega
    · rw [counted]
      omega

/-- Loading an executable stays inside the frames of the table. -/
theorem loadSegments_confined {memory after : Memory} (small : table.length ≤ numPhysPages)
    (loaded : loadSegments file table memory = .ok after) :
    Confined (table.map TranslationEntry.physicalPage) memory after := by
  unfold loadSegments at loaded
  obtain ⟨⟨code, pageCount, merges⟩, first, loaded⟩ := Runs.bind_eq_ok.mp loaded
  obtain ⟨⟨merged, byteCount⟩, second, loaded⟩ := Runs.bind_eq_ok.mp loaded
  obtain ⟨codeConfined, unmerged⟩ := loadCode_confined first
  refine codeConfined.trans ?_
  by_cases nothing : merges = true ∧ file.header.initData.size ≠ 0
  · obtain ⟨rfl, data⟩ := nothing
    -- Only a code segment with bytes in it has a last page.
    have positive : 0 < file.header.code.size.toInt := by
      have pages : (divRoundUp file.header.code.size.toInt pageSize).toNat ≠ 0 :=
        fun none => by simpa using unmerged none
      have page : (pageSize : Int) = 128 := rfl
      rw [page] at pages
      have below : ((0 : Nat) : Int) < divRoundUp file.header.code.size.toInt 128 := by omega
      simpa using lt_divRoundUp below
    obtain ⟨mergeConfined, short, behind⟩ := mergeData_confined positive data second
    exact mergeConfined.trans (loadData_confined small (by omega) (by omega) loaded)
  · rw [mergeData, if_neg (by simpa using nothing)] at second
    simp only [Except.ok.injEq, Prod.mk.injEq] at second
    obtain ⟨rfl, rfl⟩ := second
    have zero : (0 : BitVec 32).toInt = 0 := rfl
    by_cases negative : file.header.initData.size.toInt < 0
    · -- A negative size leaves no page to read.
      have alone : merges = false := by
        cases merges with
        | false => rfl
        | true =>
          refine absurd ⟨rfl, ?_⟩ nothing
          intro none
          rw [none, zero] at negative
          omega
      have below : file.header.initData.size.slt 0 = true := by
        rw [BitVec.slt_eq_decide, zero, decide_eq_true_eq]
        exact negative
      have pages : (divRoundUp (0 : BitVec 32).toInt pageSize).toNat = 0 := rfl
      simp only [alone, Bool.false_eq_true, if_false, below, if_true, pages, loadData,
        Except.ok.injEq] at loaded
      exact fun _ _ => by rw [loaded]
    · exact loadData_confined small (by omega) (by omega) loaded

end Loader

/-- The constructor for executables gives every page a frame of its own. -/
theorem Kernel.loadExecutable_spec {before after : Kernel} {file : Executable} {space : AddrSpace}
    (bits : before.physicalPageMap.numBits = numPhysPages)
    (loaded : before.loadExecutable file = .ok (space, after)) :
    ∃ old, Filled before after (fun _ => true) old space.layout.frames ∧
      old.length = file.numPages ∧ space.usage = 1 ∧ after.space = before.space := by
  unfold Kernel.loadExecutable at loaded
  dsimp only at loaded
  split at loaded
  · rename_i accepted
    obtain ⟨⟨table, middle⟩, filled, loaded⟩ := Runs.bind_eq_ok.mp loaded
    obtain ⟨memory, read, loaded⟩ := Runs.bind_eq_ok.mp loaded
    simp only [Pure.pure, Except.pure, Except.ok.injEq, Prod.mk.injEq] at loaded
    obtain ⟨rfl, rfl⟩ := loaded
    obtain ⟨filled, spaces, -⟩ := Kernel.fillTable_spec bits filled
    have length := filled.length
    simp only [List.length_map, List.length_range] at length
    have small : table.length ≤ numPhysPages := length ▸ accepted.2.1
    have confined := loadSegments_confined small read
    refine ⟨_, { filled with frames := ?_ }, by simp, rfl, spaces⟩
    -- The frames that were in use before are not among the new ones, so nothing is read into them.
    intro number inside set
    have outside : (number : Int) ∉ table.map TranslationEntry.physicalPage := by
      intro member
      obtain ⟨page, located⟩ := List.getElem?_of_mem member
      obtain ⟨other, same, -, free⟩ := filled.taken page _ located rfl
      have equal : number = other := by omega
      simp [equal, free] at set
    exact (confined number outside).trans (filled.frames number inside set)
  · simp at loaded

/-- The copy constructor gives the pages of the stack a frame of their own. -/
theorem Kernel.copySpace_spec {before after : Kernel} {father space : AddrSpace}
    (bits : before.physicalPageMap.numBits = numPhysPages)
    (copied : before.copySpace father = .ok (space, after)) :
    Filled before after (fun page => father.layout.stackPagesInit ≤ page) father.layout.frames
        space.layout.frames ∧
      space.usage = 2 ∧ after.space = before.space ∧
      after.currentThread = before.currentThread := by
  unfold Kernel.copySpace at copied
  split at copied
  · obtain ⟨⟨table, middle⟩, filled, copied⟩ := Runs.bind_eq_ok.mp copied
    simp only [Pure.pure, Except.pure, Except.ok.injEq, Prod.mk.injEq] at copied
    obtain ⟨rfl, rfl⟩ := copied
    obtain ⟨filled, unchanged⟩ := Kernel.fillTable_spec bits filled
    refine ⟨?_, rfl, unchanged⟩
    simpa [AddrSpace.layout, Layout.stackPagesInit, AddrSpace.stackPagesInit] using filled
  · simp at copied

end Nachos.Userprog
