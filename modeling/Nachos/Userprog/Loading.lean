import Nachos.Userprog.Liveness

/-! The bytes that a program of the linear build finds in its memory when it starts. -/

namespace Nachos.Userprog

/-- A page table under construction sends its pages to frames of their own. -/
structure Mapped (table : List TranslationEntry) (frame : Nat → Nat) : Prop where
  located : ∀ page, page < table.length → frameOf table page = .ok (frame page)
  apart : ∀ page other, page < table.length → other < table.length → frame page = frame other →
    page = other

/-- Through a page table the program is seen up to an address, and zeros from there on. -/
def Loaded (file : Executable) (table : List TranslationEntry) (frame : Nat → Nat)
    (memory : Memory) (end_ : Nat) : Prop :=
  ∀ address, address < table.length * pageSize →
    Blocks.placed pageSize frame memory address =
      if address < end_ then file.programByte address else 0

section Loader

variable {file : Executable} {table : List TranslationEntry} {frame : Nat → Nat}

/-- A read that continues the program where it ended so far makes it that much longer. -/
theorem Loaded.read {memory : Memory} {page offset : Nat} {numBytes position : BitVec 32}
    {bytes : List Byte} (mapped : Mapped table frame) (inside : page < table.length)
    (loaded : Loaded file table frame memory (page * pageSize + offset))
    (fits : offset + numBytes.toInt.toNat ≤ pageSize)
    (read : file.readAt numBytes position = .ok bytes)
    (source : ∀ step, step < numBytes.toInt.toNat →
      file.programByte (page * pageSize + offset + step) =
        (file.byteAt (position.toInt + step)).getD 0) :
    Loaded file table frame (Blocks.setCells memory (frame page * pageSize + offset) bytes)
      (page * pageSize + offset + numBytes.toInt.toNat) := by
  intro address small
  have short := readAt_length read
  rw [Blocks.placed_setCells mapped.apart memory inside (by omega) small]
  have old := loaded address small
  unfold Blocks.setCells
  by_cases before : address < page * pageSize + offset
  · -- In front of the place the program is there already.
    rw [if_neg (by omega), old, if_pos before, if_pos (by omega)]
  · rw [if_pos (by omega), old, if_neg before]
    by_cases written : address < page * pageSize + offset + numBytes.toInt.toNat
    · -- Inside the place the file decides, and zeros remain where the file has ended.
      obtain ⟨step, rfl⟩ := Nat.exists_eq_add_of_le (Nat.le_of_not_lt before)
      have early : step < numBytes.toInt.toNat := by omega
      rw [if_pos written, source step early, Nat.add_sub_cancel_left]
      exact (Executable.readAt_getD read).2 step early
    · -- Behind the place the zeros stay.
      have absent : bytes[address - (page * pageSize + offset)]? = none := by
        apply List.getElem?_eq_none
        omega
      rw [if_neg written, absent]
      rfl

/-- Sizes are counted in pages so that the last page is begun. -/
theorem divRoundUp_bounds {size : Int} (natural : 0 ≤ size) :
    size ≤ 128 * divRoundUp size 128 ∧ 128 * divRoundUp size 128 < size + 128 := by
  unfold divRoundUp
  rw [Int.tdiv_eq_ediv_of_nonneg natural, Int.tmod_eq_emod_of_nonneg natural]
  split <;> omega

/-- A segment that begins inside the file is read from the place that was asked for. -/
theorem position_toInt {start count : BitVec 32} (natural : 0 ≤ start.toInt)
    (counted : 0 ≤ count.toInt) (read : 0 ≤ (start + count).toInt) :
    (start + count).toInt = start.toInt + count.toInt := by
  -- If the sum had left the range of `int`, it would be negative.
  have low := start.toInt_lt
  have high := count.toInt_lt
  rw [BitVec.toInt_add, Int.bmod_def] at read ⊢
  omega

/-- One more page, while only a few have been counted. -/
theorem pageBytes_add {count : BitVec 32} {pages : Nat} (counted : count.toInt = 128 * pages)
    (few : pages < numPhysPages) : (count + pageBytes).toInt = 128 * (pages + 1 : Nat) := by
  have page : pageBytes.toInt = 128 := by decide
  have frames : numPhysPages = 32 := rfl
  rw [BitVec.toInt_add, page, Int.bmod_def]
  omega

/-- The remainder of a size that is not negative. -/
theorem srem_pageBytes_toInt {size : BitVec 32} (natural : 0 ≤ size.toInt) :
    (size.srem pageBytes).toInt = size.toInt % 128 := by
  have page : pageBytes.toInt = 128 := by decide
  rw [BitVec.toInt_srem, page, Int.tmod_eq_emod_of_nonneg natural]

/-- Reading the code segment puts it in front of the program. -/
theorem loadCode_loaded (mapped : Mapped table frame) (small : table.length ≤ numPhysPages)
    (natural : 0 ≤ file.header.code.size.toInt) {count : Nat} :
    ∀ {memory after : Memory} {start pageCount : Nat} {byteCount : BitVec 32}
      {dataMerge merges : Bool}, byteCount.toInt = 128 * start →
      file.header.code.size.toInt ≤ 128 * (start + count : Nat) →
      128 * (start + count : Nat) < file.header.code.size.toInt + 128 →
      start ≤ table.length → (start = 0 ∨ 0 ≤ file.header.code.inFileAddr.toInt) →
      dataMerge = decide (file.header.code.size.toInt < 128 * start) →
      Loaded file table frame memory (min file.header.code.size.toInt.toNat (start * pageSize)) →
      loadCode file table count memory start byteCount dataMerge = .ok (after, pageCount, merges) →
      pageCount = start + count ∧ pageCount ≤ table.length ∧
        (pageCount = 0 ∨ 0 ≤ file.header.code.inFileAddr.toInt) ∧
        merges = decide (file.header.code.size.toInt < 128 * pageCount) ∧
        Loaded file table frame after file.header.code.size.toInt.toNat := by
  have page : pageSize = 128 := rfl
  -- One turn of the loop reads one page, and the last one what is left.
  induction count with
  | zero =>
    intro memory after start pageCount byteCount dataMerge merges _ enough _ inside begins merge
      loaded done
    simp only [loadCode, Except.ok.injEq, Prod.mk.injEq] at done
    obtain ⟨rfl, rfl, rfl⟩ := done
    have all : min file.header.code.size.toInt.toNat (start * pageSize) =
        file.header.code.size.toInt.toNat := by
      rw [page]
      omega
    exact ⟨rfl, inside, begins, merge, all ▸ loaded⟩
  | succ count ih =>
    intro memory after start pageCount byteCount dataMerge merges counted enough tight inside
      begins merge loaded done
    rw [loadCode] at done
    obtain ⟨number, found, done⟩ := Runs.bind_eq_ok.mp done
    obtain ⟨bytes, read, done⟩ := Runs.bind_eq_ok.mp done
    have here := (frameOf_ok found).1
    rw [mapped.located start here, Except.ok.injEq] at found
    subst found
    have next := pageBytes_add counted (by omega)
    obtain ⟨position, -⟩ := Executable.readAt_getD read
    -- The first page is read at the beginning of the segment, which is inside the file.
    have begins : 0 ≤ file.header.code.inFileAddr.toInt := by
      rcases begins with first | begins
      · have zero : byteCount = 0 := BitVec.eq_of_toInt_eq (by simp [counted, first])
        simpa [zero] using position
      · exact begins
    have place := position_toInt begins (by omega) position
    have length : (if file.header.code.size.slt (byteCount + pageBytes) then
        file.header.code.size.srem pageBytes else pageBytes).toInt =
          min file.header.code.size.toInt (128 * (start + 1 : Nat)) - 128 * start := by
      have whole : pageBytes.toInt = 128 := by decide
      rw [BitVec.slt_eq_decide, next]
      simp only [decide_eq_true_eq]
      split
      · rw [srem_pageBytes_toInt natural]
        omega
      · omega
    have sofar : min file.header.code.size.toInt.toNat (start * pageSize) =
        start * pageSize + 0 := by
      rw [page]
      omega
    rw [sofar] at loaded
    have grown := loaded.read mapped here (by rw [length, page]; omega) read ?_
    · refine (ih next ?_ ?_ here (.inr begins) ?_ ?_ done).imp (fun total => ?_) id
      · omega
      · omega
      · rw [merge, BitVec.slt_eq_decide, next, ← Bool.decide_or, decide_eq_decide]
        omega
      · have total : start * pageSize + 0 + (min file.header.code.size.toInt
            (128 * (start + 1 : Nat)) - 128 * start).toNat =
              min file.header.code.size.toInt.toNat ((start + 1) * pageSize) := by
          rw [page]
          omega
        rwa [length, total, Nat.add_zero] at grown
      · omega
    · intro step inside
      rw [length] at inside
      -- All that is read in this loop is code.
      have code : start * pageSize + 0 + step < file.header.code.size.toInt.toNat := by
        rw [page]
        omega
      have same : file.header.code.inFileAddr.toInt + (start * pageSize + 0 + step : Nat) =
          file.header.code.inFileAddr.toInt + 128 * start + step := by
        rw [page]
        omega
      rw [Executable.programByte, if_pos code, Executable.segmentByte, same, place, counted]

/-- The data that shares the last page of the code is put behind the code. -/
theorem mergeData_loaded (mapped : Mapped table frame)
    (natural : 0 ≤ file.header.code.size.toInt) (positive : 0 ≤ file.header.initData.size.toInt)
    {memory after : Memory} {pageCount : Nat} {byteCount : BitVec 32}
    (enough : file.header.code.size.toInt ≤ 128 * pageCount)
    (tight : 128 * pageCount < file.header.code.size.toInt + 128)
    (inside : pageCount ≤ table.length)
    (loaded : Loaded file table frame memory file.header.code.size.toInt.toNat)
    (done : mergeData file table (decide (file.header.code.size.toInt < 128 * pageCount)) memory
      pageCount = .ok (after, byteCount)) :
    byteCount.toInt = min file.header.initData.size.toInt
        (128 * pageCount - file.header.code.size.toInt) ∧
      (byteCount = 0 ∨ 0 ≤ file.header.initData.inFileAddr.toInt) ∧
      Loaded file table frame after
        (file.header.code.size.toInt.toNat + byteCount.toInt.toNat) := by
  have page : pageSize = 128 := rfl
  have zero : (0 : BitVec 32).toInt = 0 := rfl
  unfold mergeData at done
  split at done
  · rename_i shares
    obtain ⟨begun, data⟩ := Bool.and_eq_true_iff.mp shares
    rw [decide_eq_true_eq] at begun
    obtain ⟨number, found, done⟩ := Runs.bind_eq_ok.mp done
    obtain ⟨bytes, read, done⟩ := Runs.bind_eq_ok.mp done
    simp only [Pure.pure, Except.pure, Except.ok.injEq, Prod.mk.injEq] at done
    obtain ⟨rfl, rfl⟩ := done
    have last : pageCount - 1 < table.length := by omega
    rw [mapped.located _ last, Except.ok.injEq] at found
    subst found
    have remainder := srem_pageBytes_toInt natural
    have offset : (file.header.code.size.srem pageBytes).toNat =
        (file.header.code.size.toInt % 128).toNat := by
      have both := BitVec.toInt_eq_toNat_bmod (file.header.code.size.srem pageBytes)
      rw [Int.bmod_def] at both
      omega
    have room : (mergeRoom file).toInt = 128 * pageCount - file.header.code.size.toInt := by
      have whole : pageBytes.toInt = 128 := by decide
      rw [mergeRoom, BitVec.toInt_sub, whole, Int.bmod_def]
      omega
    have length : (if file.header.initData.size.slt (mergeRoom file) then
        file.header.initData.size else mergeRoom file).toInt =
          min file.header.initData.size.toInt
            (128 * pageCount - file.header.code.size.toInt) := by
      rw [BitVec.slt_eq_decide, room]
      simp only [decide_eq_true_eq]
      split <;> omega
    -- The data goes on exactly where the code has ended.
    have place : (pageCount - 1) * pageSize + (file.header.code.size.srem pageBytes).toNat =
        file.header.code.size.toInt.toNat := by
      rw [page, offset]
      omega
    rw [← place] at loaded ⊢
    refine ⟨length, .inr (Executable.readAt_getD read).1, ?_⟩
    refine loaded.read mapped last ?_ read ?_
    · rw [length, page, offset]
      omega
    · intro step early
      rw [length] at early
      rw [place, Executable.programByte, if_neg (by omega), if_pos (by omega),
        Executable.segmentByte, Nat.add_sub_cancel_left]
  · rename_i alone
    simp only [Except.ok.injEq, Prod.mk.injEq] at done
    obtain ⟨rfl, rfl⟩ := done
    refine ⟨?_, .inl rfl, by simpa using loaded⟩
    -- Either the code fills its last page or there is no data at all.
    simp only [Bool.and_eq_true, decide_eq_true_eq, bne_iff_ne, not_and, not_not] at alone
    by_cases begun : file.header.code.size.toInt < 128 * pageCount
    · rw [alone begun, zero]
      omega
    · rw [zero]
      omega

/-- Reading the data segment completes the program. -/
theorem loadData_loaded (mapped : Mapped table frame) (small : table.length ≤ numPhysPages)
    (natural : 0 ≤ file.header.code.size.toInt) (positive : 0 ≤ file.header.initData.size.toInt)
    {count : Nat} :
    ∀ {memory after : Memory} {pageCount : Nat} {byteCount : BitVec 32},
      (count = 0 ∨ byteCount.toInt = 128 * pageCount - file.header.code.size.toInt) →
      file.header.code.size.toInt ≤ 128 * pageCount →
      file.header.code.size.toInt + file.header.initData.size.toInt ≤
        128 * (pageCount + count : Nat) →
      (count = 0 ∨ 128 * (pageCount + count : Nat) <
        file.header.code.size.toInt + file.header.initData.size.toInt + 128) →
      pageCount ≤ table.length → (byteCount = 0 ∨ 0 ≤ file.header.initData.inFileAddr.toInt) →
      Loaded file table frame memory (min (file.header.code.size.toInt.toNat +
        file.header.initData.size.toInt.toNat) (pageCount * pageSize)) →
      loadData file table count memory pageCount byteCount = .ok after →
      pageCount + count ≤ table.length ∧
        Loaded file table frame after (file.header.code.size.toInt.toNat +
          file.header.initData.size.toInt.toNat) := by
  have page : pageSize = 128 := rfl
  have frames : numPhysPages = 32 := rfl
  -- One turn of the loop reads one page, and the last one what is left.
  induction count with
  | zero =>
    intro memory after pageCount byteCount _ _ enough _ inside _ loaded done
    simp only [loadData, Except.ok.injEq] at done
    subst done
    have all : min (file.header.code.size.toInt.toNat + file.header.initData.size.toInt.toNat)
        (pageCount * pageSize) =
          file.header.code.size.toInt.toNat + file.header.initData.size.toInt.toNat := by
      rw [page]
      omega
    exact ⟨inside, all ▸ loaded⟩
  | succ count ih =>
    intro memory after pageCount byteCount counted code enough tight inside begins loaded done
    rw [loadData] at done
    obtain ⟨number, found, done⟩ := Runs.bind_eq_ok.mp done
    obtain ⟨bytes, read, done⟩ := Runs.bind_eq_ok.mp done
    have here := (frameOf_ok found).1
    rw [mapped.located pageCount here, Except.ok.injEq] at found
    subst found
    have counted := counted.resolve_left (by omega)
    have tight := tight.resolve_left (by omega)
    have whole : pageBytes.toInt = 128 := by decide
    have next : (byteCount + pageBytes).toInt = byteCount.toInt + 128 := by
      rw [BitVec.toInt_add, whole, Int.bmod_def]
      omega
    obtain ⟨position, -⟩ := Executable.readAt_getD read
    -- The first byte is read at the beginning of the segment, which is inside the file.
    have begins : 0 ≤ file.header.initData.inFileAddr.toInt := by
      rcases begins with zero | begins
      · simpa [zero] using position
      · exact begins
    have place := position_toInt begins (by omega) position
    have length : (if file.header.initData.size.slt (byteCount + pageBytes) then
        file.header.initData.size - (byteCount + pageBytes - pageBytes) else pageBytes).toInt =
          min file.header.initData.size.toInt (byteCount.toInt + 128) - byteCount.toInt := by
      rw [BitVec.slt_eq_decide, next, BitVec.add_sub_cancel]
      simp only [decide_eq_true_eq]
      split
      · rw [BitVec.toInt_sub, Int.bmod_def]
        omega
      · omega
    have sofar : min (file.header.code.size.toInt.toNat + file.header.initData.size.toInt.toNat)
        (pageCount * pageSize) = pageCount * pageSize + 0 := by
      rw [page]
      omega
    rw [sofar] at loaded
    have grown := loaded.read mapped here (by rw [length, page]; omega) read ?_
    · refine (ih (.inr ?_) ?_ ?_ (.inr ?_) here (.inr begins) ?_ done).imp
        (fun total => ?_) id
      · rw [next]
        omega
      · omega
      · omega
      · omega
      · have total : pageCount * pageSize + 0 + (min file.header.initData.size.toInt
            (byteCount.toInt + 128) - byteCount.toInt).toNat =
              min (file.header.code.size.toInt.toNat + file.header.initData.size.toInt.toNat)
                ((pageCount + 1) * pageSize) := by
          rw [page]
          omega
        rwa [length, total, Nat.add_zero] at grown
      · omega
    · intro step early
      rw [length] at early
      -- All that is read in this loop is data.
      have data : ¬ pageCount * pageSize + 0 + step < file.header.code.size.toInt.toNat := by
        rw [page]
        omega
      have known : pageCount * pageSize + 0 + step < file.header.code.size.toInt.toNat +
          file.header.initData.size.toInt.toNat := by
        rw [page]
        omega
      have same : file.header.initData.inFileAddr.toInt +
          (pageCount * pageSize + 0 + step - file.header.code.size.toInt.toNat : Nat) =
            file.header.initData.inFileAddr.toInt + byteCount.toInt + step := by
        rw [page]
        omega
      rw [Executable.programByte, if_neg data, if_pos known, Executable.segmentByte, same, place]

/-- The data that is left for pages of its own, as the constructor counts it. -/
theorem dataLeft_toInt (natural : 0 ≤ file.header.code.size.toInt)
    (positive : 0 ≤ file.header.initData.size.toInt) {pages : Nat}
    (enough : file.header.code.size.toInt ≤ 128 * pages)
    (tight : 128 * pages < file.header.code.size.toInt + 128) {left : BitVec 32}
    (counted : left = if decide (file.header.code.size.toInt < 128 * pages) then
      file.header.initData.size - mergeRoom file else file.header.initData.size) :
    (if left.slt 0 then 0 else left).toInt =
      max 0 (file.header.code.size.toInt + file.header.initData.size.toInt - 128 * pages) := by
  have zero : (0 : BitVec 32).toInt = 0 := rfl
  have whole : pageBytes.toInt = 128 := by decide
  have remainder := srem_pageBytes_toInt natural
  rw [BitVec.slt_eq_decide, zero]
  simp only [decide_eq_true_eq] at counted ⊢
  split at counted
  · -- The last page of the code takes what it has room for.
    have room : (mergeRoom file).toInt = 128 * pages - file.header.code.size.toInt := by
      rw [mergeRoom, BitVec.toInt_sub, whole, Int.bmod_def]
      omega
    have rest : left.toInt = file.header.initData.size.toInt - (mergeRoom file).toInt := by
      have high := file.header.initData.size.toInt_lt
      rw [counted, BitVec.toInt_sub, Int.bmod_def]
      split <;> omega
    split <;> omega
  · rw [counted]
    split <;> omega

/-- The loop over the code reaches its end when the table has enough pages. -/
theorem loadCode_ok (mapped : Mapped table frame) (small : table.length ≤ numPhysPages)
    (readable : file.Readable file.header.code) {count : Nat} :
    ∀ (memory : Memory) {start : Nat} {byteCount : BitVec 32} (dataMerge : Bool),
      byteCount.toInt = 128 * start → start + count ≤ table.length →
      128 * (start + count : Nat) < file.header.code.size.toInt + 128 →
      ∃ result, loadCode file table count memory start byteCount dataMerge = .ok result := by
  induction count with
  | zero => exact fun _ _ _ _ _ _ _ => ⟨_, rfl⟩
  | succ count ih =>
    intro memory start byteCount dataMerge counted enough tight
    have next := pageBytes_add counted (by omega)
    have position := readable.position counted (by omega) (by omega)
    obtain ⟨bytes, read⟩ := Executable.readAt_ok (if file.header.code.size.slt (byteCount + pageBytes) then
      file.header.code.size.srem pageBytes else pageBytes) position
    obtain ⟨result, done⟩ := ih (Blocks.setCells memory (frame start * pageSize) bytes)
      (dataMerge || file.header.code.size.slt (byteCount + pageBytes)) next (by omega) (by omega)
    refine ⟨result, ?_⟩
    rw [loadCode]
    exact Runs.bind_eq_ok.mpr ⟨_, mapped.located start (by omega),
      Runs.bind_eq_ok.mpr ⟨bytes, read, done⟩⟩

/-- The loop over the data reaches its end when the table has enough pages. -/
theorem loadData_ok (mapped : Mapped table frame) (small : table.length ≤ numPhysPages)
    (readable : file.Readable file.header.initData) {count : Nat} :
    ∀ (memory : Memory) {pageCount : Nat} {byteCount : BitVec 32},
      (count = 0 ∨ 0 ≤ byteCount.toInt ∧ byteCount.toInt ≤ 128 * pageCount) →
      (count = 0 ∨ byteCount.toInt + 128 * count < file.header.initData.size.toInt + 128) →
      pageCount + count ≤ table.length →
      ∃ after, loadData file table count memory pageCount byteCount = .ok after := by
  have frames : numPhysPages = 32 := rfl
  have whole : pageBytes.toInt = 128 := by decide
  induction count with
  | zero => exact fun _ _ _ _ _ _ => ⟨_, rfl⟩
  | succ count ih =>
    intro memory pageCount byteCount counted tight enough
    obtain ⟨low, high⟩ := counted.resolve_left (by omega)
    have tight := tight.resolve_left (by omega)
    have next : (byteCount + pageBytes).toInt = byteCount.toInt + 128 := by
      rw [BitVec.toInt_add, whole, Int.bmod_def]
      omega
    have position := readable.position rfl low (by omega)
    obtain ⟨bytes, read⟩ := Executable.readAt_ok (if file.header.initData.size.slt (byteCount + pageBytes) then
      file.header.initData.size - (byteCount + pageBytes - pageBytes) else pageBytes) position
    have counts : (byteCount + pageBytes).toInt ≤ 128 * (pageCount + 1 : Nat) := by omega
    obtain ⟨after, done⟩ := ih (Blocks.setCells memory (frame pageCount * pageSize) bytes)
      (.inr ⟨by omega, counts⟩) (.inr (by omega)) (by omega)
    refine ⟨after, ?_⟩
    rw [loadData]
    exact Runs.bind_eq_ok.mpr ⟨_, mapped.located pageCount (by omega),
      Runs.bind_eq_ok.mpr ⟨bytes, read, done⟩⟩

/-- The loader puts code and data into cleared frames, one behind the other. -/
theorem loadSegments_loaded (mapped : Mapped table frame) (small : table.length ≤ numPhysPages)
    (natural : 0 ≤ file.header.code.size.toInt) (positive : 0 ≤ file.header.initData.size.toInt)
    {memory after : Memory} (blank : Loaded file table frame memory 0)
    (done : loadSegments file table memory = .ok after) :
    file.header.code.size.toInt + file.header.initData.size.toInt ≤ table.length * pageSize ∧
      Loaded file table frame after (file.header.code.size.toInt.toNat +
        file.header.initData.size.toInt.toNat) := by
  have page : (pageSize : Int) = 128 := rfl
  have cells : pageSize = 128 := rfl
  unfold loadSegments at done
  obtain ⟨⟨code, pageCount, merges⟩, first, done⟩ := Runs.bind_eq_ok.mp done
  obtain ⟨⟨merged, byteCount⟩, second, done⟩ := Runs.bind_eq_ok.mp done
  -- The code fills the pages that its size asks for.
  obtain ⟨enough, tight⟩ := divRoundUp_bounds natural
  rw [page] at first
  obtain ⟨pages, inside, -, rfl, codeLoaded⟩ := loadCode_loaded mapped small natural (by simp)
    (by omega) (by omega) (Nat.zero_le _) (.inl rfl) (by simpa using natural)
    (by simpa using blank) first
  rw [Nat.zero_add] at pages
  -- Data goes behind it, and the rest into pages of its own.
  obtain ⟨mergedBytes, begins, mergeLoaded⟩ := mergeData_loaded mapped natural positive (by omega)
    (by omega) inside codeLoaded second
  have codeEnough : file.header.code.size.toInt ≤ 128 * pageCount := by omega
  have left := dataLeft_toInt natural positive codeEnough (by omega) rfl
  obtain ⟨leftEnough, leftTight⟩ := divRoundUp_bounds (Int.le_max_left 0
    (file.header.code.size.toInt + file.header.initData.size.toInt - 128 * pageCount))
  dsimp only at done
  rw [left, page] at done
  have loaded : Loaded file table frame merged (min (file.header.code.size.toInt.toNat +
      file.header.initData.size.toInt.toNat) (pageCount * pageSize)) := by
    have total : file.header.code.size.toInt.toNat + byteCount.toInt.toNat =
        min (file.header.code.size.toInt.toNat + file.header.initData.size.toInt.toNat)
          (pageCount * pageSize) := by
      rw [cells]
      omega
    exact total ▸ mergeLoaded
  refine (loadData_loaded mapped small natural positive ?_ (by omega) (by omega) ?_ inside begins
    loaded done).imp (fun total => ?_) id
  · omega
  · omega
  · rw [page]
    omega

/-- Data that shares a page with the code can be read when it is readable. -/
theorem mergeData_ok (mapped : Mapped table frame) (natural : 0 ≤ file.header.code.size.toInt)
    (readable : file.Readable file.header.initData) (memory : Memory) {pageCount : Nat}
    (inside : pageCount ≤ table.length) :
    ∃ result, mergeData file table (decide (file.header.code.size.toInt < 128 * pageCount)) memory
      pageCount = .ok result := by
  unfold mergeData
  split
  · rename_i shares
    obtain ⟨begun, data⟩ := Bool.and_eq_true_iff.mp shares
    rw [decide_eq_true_eq] at begun
    -- There is data, so its place in the file is known.
    have some_ : file.header.initData.size.toInt ≠ 0 := by
      rw [bne_iff_ne] at data
      exact fun zero => data (BitVec.eq_of_toInt_eq (by rw [zero]; rfl))
    obtain ⟨position, -⟩ := readable.resolve_left some_
    obtain ⟨bytes, read⟩ := Executable.readAt_ok (if file.header.initData.size.slt (mergeRoom file) then
      file.header.initData.size else mergeRoom file) position
    rw [mapped.located _ (by omega), Runs.ok_bind]
    exact ⟨_, Runs.bind_eq_ok.mpr ⟨bytes, read, rfl⟩⟩
  · exact ⟨_, rfl⟩

/-- A readable executable that fits into its pages is loaded to the end. -/
theorem loadSegments_ok (mapped : Mapped table frame) (small : table.length ≤ numPhysPages)
    (natural : 0 ≤ file.header.code.size.toInt) (positive : 0 ≤ file.header.initData.size.toInt)
    (code : file.Readable file.header.code) (data : file.Readable file.header.initData)
    (fits : file.header.code.size.toInt + file.header.initData.size.toInt ≤
      table.length * pageSize)
    {memory : Memory} (blank : Loaded file table frame memory 0) :
    ∃ after, loadSegments file table memory = .ok after := by
  have page : (pageSize : Int) = 128 := rfl
  have start : (0 : BitVec 32).toInt = 128 * (0 : Nat) := rfl
  obtain ⟨enough, tight⟩ := divRoundUp_bounds natural
  rw [page] at fits
  unfold loadSegments
  rw [page]
  -- The code has as many pages as its size asks for.
  have pages : 0 + (divRoundUp file.header.code.size.toInt 128).toNat ≤ table.length := by omega
  obtain ⟨⟨coded, pageCount, merges⟩, first⟩ := loadCode_ok mapped small code memory false start
    pages (by omega)
  obtain ⟨counted, inside, -, rfl, codeLoaded⟩ := loadCode_loaded mapped small natural start
    (by omega) (by omega) (Nat.zero_le _) (.inl rfl) (by simpa using natural)
    (by simpa using blank) first
  -- What its last page has no room for is put into the pages that follow.
  have codeEnough : file.header.code.size.toInt ≤ 128 * pageCount := by omega
  obtain ⟨⟨merged, byteCount⟩, second⟩ := mergeData_ok mapped natural data coded inside
  obtain ⟨mergedBytes, -, -⟩ := mergeData_loaded mapped natural positive codeEnough (by omega)
    inside codeLoaded second
  have left := dataLeft_toInt natural positive codeEnough (by omega) rfl
  obtain ⟨leftEnough, leftTight⟩ := divRoundUp_bounds (Int.le_max_left 0
    (file.header.code.size.toInt + file.header.initData.size.toInt - 128 * pageCount))
  obtain ⟨count, named⟩ : ∃ count, count = (divRoundUp (max 0 (file.header.code.size.toInt +
    file.header.initData.size.toInt - 128 * pageCount)) 128).toNat := ⟨_, rfl⟩
  have counters : count = 0 ∨ 0 ≤ byteCount.toInt ∧ byteCount.toInt ≤ 128 * pageCount := by omega
  have last : count = 0 ∨ byteCount.toInt + 128 * count < file.header.initData.size.toInt + 128 := by
    omega
  obtain ⟨after, third⟩ := loadData_ok mapped small data merged counters last (by omega)
  refine ⟨after, ?_⟩
  dsimp only
  rw [first, Runs.ok_bind]
  dsimp only
  rw [left, second, Runs.ok_bind, ← named]
  exact third

end Loader

/-- There are frames for all pages when the map counts enough clear bits. -/
theorem Kernel.fillTable_ok {entries : List TranslationEntry} :
    ∀ {before : Kernel} {start : Nat}, entries.length ≤ before.physicalPageMap.numClear →
      ∃ result, before.fillTable (fun _ => true) start entries = .ok result := by
  -- Each page takes one of the clear bits.
  induction entries with
  | nil => exact fun _ => ⟨_, rfl⟩
  | cons entry entries ih =>
    intro before start enough
    rw [List.length_cons] at enough
    obtain ⟨number, map, found, counted⟩ := BitMap.exists_find (by omega : 0 <
      before.physicalPageMap.numClear)
    have taken : before.takeFrame = .ok (number, { before with
        mainMemory := Blocks.setBlock pageSize before.mainMemory number zeroPage
        physicalPageMap := map }) := by
      rw [Kernel.takeFrame, found]
    obtain ⟨⟨table, after⟩, filled⟩ := @ih { before with
      mainMemory := Blocks.setBlock pageSize before.mainMemory number zeroPage
      physicalPageMap := map } (start + 1) (by dsimp only; omega)
    refine ⟨({ entry with physicalPage := number } :: table, after), ?_⟩
    rw [Kernel.fillTable, if_pos rfl]
    exact Runs.bind_eq_ok.mpr ⟨_, taken, Runs.bind_eq_ok.mpr ⟨_, filled, rfl⟩⟩

/-- The loop changes nothing in an entry but the frame, and the frame it finds is cleared. -/
theorem Kernel.fillTable_cleared {entries : List TranslationEntry} :
    ∀ {before after : Kernel} {start : Nat} {table : List TranslationEntry},
      before.fillTable (fun _ => true) start entries = .ok (table, after) →
      (∀ (page : Nat) (entry : TranslationEntry), table[page]? = some entry → ∃ old number,
        entries[page]? = some old ∧ entry = { old with physicalPage := (number : Nat) } ∧
          after.frame number = zeroPage) ∧
      ∀ number, before.frame number = zeroPage → after.frame number = zeroPage := by
  induction entries with
  | nil =>
    intro before after start table filled
    simp only [Kernel.fillTable, Except.ok.injEq, Prod.mk.injEq] at filled
    obtain ⟨rfl, rfl⟩ := filled
    exact ⟨by simp, fun _ zero => zero⟩
  | cons entry entries ih =>
    intro before after start table filled
    rw [Kernel.fillTable, if_pos rfl] at filled
    obtain ⟨⟨number, middle⟩, taken, filled⟩ := Runs.bind_eq_ok.mp filled
    obtain ⟨⟨rest, last⟩, later, filled⟩ := Runs.bind_eq_ok.mp filled
    simp only [Pure.pure, Except.pure, Except.ok.injEq, Prod.mk.injEq] at filled
    obtain ⟨rfl, rfl⟩ := filled
    obtain ⟨listed, kept⟩ := ih later
    have cleared : ∀ other, middle.frame other =
        if other = number then zeroPage else before.frame other := by
      intro other
      unfold Kernel.takeFrame at taken
      split at taken
      · simp at taken
      · simp only [Except.ok.injEq, Prod.mk.injEq] at taken
        obtain ⟨rfl, rfl⟩ := taken
        exact Blocks.block_setBlock _ _ _ _
    refine ⟨?_, ?_⟩
    · intro page found located
      cases page with
      | zero =>
        -- The frame of the first page is cleared, and the rest of the loop leaves it so.
        rw [List.getElem?_cons_zero, Option.some.injEq] at located
        exact ⟨entry, number, rfl, located.symm, kept number (by rw [cleared, if_pos rfl])⟩
      | succ page => exact listed page found located
    · intro other zero
      refine kept other ?_
      rw [cleared]
      split
      · rfl
      · exact zero

/-- The frame that a page table gives a page. -/
def frameIn (table : List TranslationEntry) (page : Nat) : Nat :=
  (table[page]?.map fun entry => entry.physicalPage.toNat).getD 0

/-- A page that a program can read and write, in a frame that exists. -/
structure Present (table : List TranslationEntry) (page : Nat) (entry : TranslationEntry) : Prop where
  located : table[page]? = some entry
  valid : entry.valid = true
  writable : entry.readOnly = false
  framed : entry.physicalPage = frameIn table page
  inside : frameIn table page < numPhysPages

/-- The loop of the constructor builds a table that maps every page to a cleared frame. -/
theorem Kernel.fillTable_mapped {before after : Kernel} {numPages : Nat}
    {table : List TranslationEntry} (bits : before.physicalPageMap.numBits = numPhysPages)
    (filled : before.fillTable (fun _ => true) 0 ((List.range numPages).map blankEntry) =
      .ok (table, after)) :
    table.length = numPages ∧ Mapped table (frameIn table) ∧
      (∀ page, page < numPages → ∃ entry, Present table page entry) ∧
      ∀ file, Loaded file table (frameIn table) after.mainMemory 0 := by
  obtain ⟨spec, -, -⟩ := Kernel.fillTable_spec bits filled
  obtain ⟨listed, -⟩ := Kernel.fillTable_cleared filled
  have length : table.length = numPages := by simpa using spec.length
  have present : ∀ page, page < numPages → ∃ entry, Present table page entry ∧
      after.frame (frameIn table page) = zeroPage := by
    intro page inside
    have located := List.getElem?_eq_getElem (show page < table.length by omega)
    obtain ⟨old, number, blank, same, zero⟩ := listed page _ located
    have named : frameIn table page = number := by simp [frameIn, located, same]
    have fresh : old = blankEntry page := by
      simpa [List.getElem?_range inside, eq_comm] using blank
    obtain ⟨other, framed, small, -⟩ := spec.taken page number (by simp [located, same]) rfl
    refine ⟨table[page], ⟨located, ?_, ?_, ?_, ?_⟩, by rw [named]; exact zero⟩
    · rw [same, fresh]
      rfl
    · rw [same, fresh]
      rfl
    · rw [named, same]
    · rw [named]
      omega
  refine ⟨length, ⟨?_, ?_⟩, fun page inside => ?_, ?_⟩
  · intro page inside
    obtain ⟨entry, here, -⟩ := present page (by omega)
    have small := here.inside
    rw [frameOf, here.located]
    simp only [here.framed, frameNumber]
    rw [if_pos (by omega), Int.toNat_natCast]
  · intro page other inside inside' same
    obtain ⟨first, here, -⟩ := present page (by omega)
    obtain ⟨second, there, -⟩ := present other (by omega)
    -- The loop never takes one frame twice.
    exact spec.apart page other (frameIn table page) (by simp [here.located, here.framed])
      (by simp [there.located, there.framed, same]) rfl rfl
  · obtain ⟨entry, here, -⟩ := present page inside
    exact ⟨entry, here⟩
  · intro file address small
    have page : address / pageSize < numPages := by
      rw [← length]
      exact Nat.div_lt_of_lt_mul (by rwa [Nat.mul_comm] at small)
    obtain ⟨entry, -, zero⟩ := present (address / pageSize) page
    rw [if_neg (Nat.not_lt_zero _)]
    exact congrFun zero ⟨address % pageSize, Nat.mod_lt _ (by decide)⟩

/-- Behind the initialised data a program has only zeros. -/
theorem programByte_zero {file : Executable} {address : Nat}
    (behind : file.header.code.size.toInt.toNat + file.header.initData.size.toInt.toNat ≤ address) :
    file.programByte address = 0 := by
  rw [Executable.programByte, if_neg (by omega), if_neg (by omega)]

/-- What the constructor for executables has loaded when it comes to its end. -/
structure LoadedSpace (file : Executable) (space : AddrSpace) (memory : Memory) : Prop where
  mapped : Mapped space.pageTable (frameIn space.pageTable)
  present : ∀ page, page < space.pageTable.length → ∃ entry, Present space.pageTable page entry
  fits : file.header.code.size.toInt + file.header.initData.size.toInt ≤
    space.pageTable.length * pageSize
  bytes : ∀ address, address < space.pageTable.length * pageSize →
    Blocks.placed pageSize (frameIn space.pageTable) memory address = file.programByte address

/-- A program that was loaded finds its code, its data and zeros at its addresses. -/
theorem Kernel.loadExecutable_loaded {before after : Kernel} {file : Executable}
    {space : AddrSpace} (bits : before.physicalPageMap.numBits = numPhysPages)
    (natural : 0 ≤ file.header.code.size.toInt) (positive : 0 ≤ file.header.initData.size.toInt)
    (done : before.loadExecutable file = .ok (space, after)) :
    space.pageTable.length = file.numPages ∧ LoadedSpace file space after.mainMemory := by
  unfold Kernel.loadExecutable at done
  dsimp only at done
  split at done
  · rename_i accepted
    obtain ⟨⟨table, middle⟩, filled, done⟩ := Runs.bind_eq_ok.mp done
    obtain ⟨memory, read, done⟩ := Runs.bind_eq_ok.mp done
    simp only [Pure.pure, Except.pure, Except.ok.injEq, Prod.mk.injEq] at done
    obtain ⟨rfl, rfl⟩ := done
    obtain ⟨length, mapped, present, blank⟩ := Kernel.fillTable_mapped bits filled
    obtain ⟨fits, loaded⟩ := loadSegments_loaded mapped (by omega) natural positive (blank file) read
    refine ⟨length, mapped, fun page inside => present page (length ▸ inside), fits, ?_⟩
    intro address small
    rw [loaded address small]
    split
    · rfl
    · rw [programByte_zero (by omega)]
  · simp at done

/-- The constructor accepts a readable executable that passes its tests. -/
theorem Kernel.loadExecutable_ok {before : Kernel} {file : Executable}
    (bits : before.physicalPageMap.numBits = numPhysPages)
    (natural : 0 ≤ file.header.code.size.toInt) (positive : 0 ≤ file.header.initData.size.toInt)
    (noff : file.header.isNoff = true) (small : file.numPages ≤ numPhysPages)
    (clear : file.numPages ≤ before.physicalPageMap.numClear)
    (code : file.Readable file.header.code) (data : file.Readable file.header.initData)
    (fits : file.header.code.size.toInt + file.header.initData.size.toInt ≤
      file.numPages * pageSize) :
    ∃ space after, before.loadExecutable file = .ok (space, after) := by
  obtain ⟨⟨table, middle⟩, filled⟩ := @Kernel.fillTable_ok ((List.range file.numPages).map
    blankEntry) before 0 (by simpa using clear)
  obtain ⟨length, mapped, -, blank⟩ := Kernel.fillTable_mapped bits filled
  obtain ⟨memory, read⟩ := loadSegments_ok mapped (by omega) natural positive code data
    (by rw [length]; exact fits) (blank file)
  refine ⟨⟨table, 1⟩, { middle with mainMemory := memory }, ?_⟩
  unfold Kernel.loadExecutable
  dsimp only
  rw [if_pos ⟨noff, small, clear⟩]
  exact Runs.bind_eq_ok.mpr ⟨_, filled, Runs.bind_eq_ok.mpr ⟨_, read, rfl⟩⟩

/-- A program reads the byte that lies in its frame. -/
theorem readMem_placed {table : List TranslationEntry} {entry : TranslationEntry}
    (memory : Memory) {addr : BitVec 32}
    (present : Present table (virtualPageNumber addr) entry) :
    ∃ after, readMem (.pageTable table) memory addr 1 =
      .ok ((Blocks.placed pageSize (frameIn table) memory addr.toNat).signExtend 32, after) := by
  have hit : Translated (.pageTable table) addr 1 false (virtualPageNumber addr) entry
      (frameIn table (virtualPageNumber addr)) :=
    ⟨by simp [misaligned], by simp [findEntry, present.located, present.valid], present.located,
      by simp, present.framed, present.inside⟩
  refine ⟨.pageTable (table.modify (virtualPageNumber addr) (·.touch false)), ?_⟩
  rw [readMem, translate_of_translated hit (.inl rfl)]
  rfl

/-- An address space has as many pages as its segments and its stack need. -/
theorem numPages_bounds {file : Executable} (natural : 0 ≤ file.header.code.size.toInt)
    (positive : 0 ≤ file.header.initData.size.toInt)
    (blank : 0 ≤ file.header.uninitData.size.toInt)
    (bounded : file.header.code.size.toInt + file.header.initData.size.toInt +
      file.header.uninitData.size.toInt + userStackSize < 2 ^ 31) :
    file.header.code.size.toInt + file.header.initData.size.toInt ≤ file.numPages * pageSize := by
  have page : (pageSize : Int) = 128 := rfl
  have stack : userStackSize = 1024 := rfl
  rw [stack] at bounded
  have total : (file.header.code.size + file.header.initData.size + file.header.uninitData.size +
      BitVec.ofNat 32 userStackSize).toInt = file.header.code.size.toInt +
        file.header.initData.size.toInt + file.header.uninitData.size.toInt + 1024 := by
    have size : (BitVec.ofNat 32 userStackSize).toInt = 1024 := by decide
    simp only [BitVec.toInt_add, size, Int.bmod_def]
    omega
  obtain ⟨enough, tight⟩ := divRoundUp_bounds (show 0 ≤ file.header.code.size.toInt +
    file.header.initData.size.toInt + file.header.uninitData.size.toInt + 1024 by omega)
  rw [Executable.numPages, total, page, BitVec.toNat_ofInt]
  omega

/-- A byte of a readable segment is a byte of the file. -/
theorem byteAt_segmentByte {file : Executable} {segment : Segment}
    (readable : file.Readable segment) {offset : Nat} (inside : offset < segment.size.toInt) :
    file.byteAt (segment.inFileAddr.toInt + offset) = some (file.segmentByte segment offset) := by
  obtain ⟨low, high⟩ := readable.resolve_left (by omega)
  have place : (segment.inFileAddr.toInt + offset).toNat < file.contents.length := by omega
  rw [Executable.segmentByte, Executable.byteAt, if_pos (by omega), List.getElem?_eq_getElem place]
  rfl

/--
The linear loader builds the program that the header describes.

Every address that the page table covers reads as code, as initialised data behind the code, or as
zero. Frames that were in use before keep their bytes.
-/
theorem loadExecutable_correct {before : Kernel} {file : Executable}
    (bits : before.physicalPageMap.numBits = numPhysPages)
    (natural : 0 ≤ file.header.code.size.toInt) (positive : 0 ≤ file.header.initData.size.toInt)
    (blank : 0 ≤ file.header.uninitData.size.toInt)
    (bounded : file.header.code.size.toInt + file.header.initData.size.toInt +
      file.header.uninitData.size.toInt + userStackSize < 2 ^ 31)
    (noff : file.header.isNoff = true) (small : file.numPages ≤ numPhysPages)
    (clear : file.numPages ≤ before.physicalPageMap.numClear)
    (code : file.Readable file.header.code) (data : file.Readable file.header.initData) :
    ∃ space after, before.loadExecutable file = .ok (space, after) ∧
      space.pageTable.length = file.numPages ∧
      (∀ addr : BitVec 32, addr.toNat < file.numPages * pageSize → ∃ byte table,
        readMem (.pageTable space.pageTable) after.mainMemory addr 1 =
          .ok (byte.signExtend 32, table) ∧
        (addr.toNat < file.header.code.size.toInt →
          file.byteAt (file.header.code.inFileAddr.toInt + addr.toNat) = some byte) ∧
        (file.header.code.size.toInt ≤ addr.toNat →
          addr.toNat < file.header.code.size.toInt + file.header.initData.size.toInt →
          file.byteAt (file.header.initData.inFileAddr.toInt +
            (addr.toNat - file.header.code.size.toInt)) = some byte) ∧
        (file.header.code.size.toInt + file.header.initData.size.toInt ≤ addr.toNat →
          byte = 0)) ∧
      ∀ number, number < numPhysPages → before.physicalPageMap.testBit number = true →
        after.frame number = before.frame number := by
  obtain ⟨space, after, done⟩ := Kernel.loadExecutable_ok bits natural positive noff small clear
    code data (numPages_bounds natural positive blank bounded)
  obtain ⟨length, loaded⟩ := Kernel.loadExecutable_loaded bits natural positive done
  obtain ⟨_, filled, -, -, -⟩ := Kernel.loadExecutable_spec bits done
  refine ⟨space, after, done, length, ?_, filled.frames⟩
  intro addr inside
  have page : virtualPageNumber addr < space.pageTable.length := by
    rw [length]
    exact Nat.div_lt_of_lt_mul (by rwa [Nat.mul_comm] at inside)
  obtain ⟨entry, present⟩ := loaded.present _ page
  obtain ⟨table, read⟩ := readMem_placed after.mainMemory present
  rw [loaded.bytes addr.toNat (by rw [length]; exact inside)] at read
  refine ⟨file.programByte addr.toNat, table, read, ?_, ?_, ?_⟩
  · intro early
    rw [byteAt_segmentByte code early, Executable.programByte, if_pos (by omega)]
  · intro late early
    -- The offset inside the data counts from the end of the code.
    have offset : (addr.toNat : Int) - file.header.code.size.toInt =
        (addr.toNat - file.header.code.size.toInt.toNat : Nat) := by omega
    rw [offset, byteAt_segmentByte data (by omega), Executable.programByte, if_neg (by omega),
      if_pos (by omega)]
  · intro behind
    exact programByte_zero (by omega)

/-- A program whose data begins in the middle of the last page of its code. -/
def mergedProgram : Executable where
  header := ⟨true, ⟨0#32, 0#32, 3#32⟩, ⟨0#32, 3#32, 2#32⟩, ⟨0#32, 0#32, 0#32⟩⟩
  contents := [1#8, 2#8, 3#8, 4#8, 5#8]
  fits := by decide

/-- The first byte of its data is read behind its code. -/
theorem loadExecutable_correct_merged :
    ∃ space after byte table, firstKernel.loadExecutable mergedProgram = .ok (space, after) ∧
      readMem (.pageTable space.pageTable) after.mainMemory 3#32 1 =
        .ok (byte.signExtend 32, table) ∧ mergedProgram.byteAt 3 = some byte := by
  obtain ⟨space, after, done, -, read, -⟩ := @loadExecutable_correct firstKernel mergedProgram
    (by decide) (by decide) (by decide) (by decide) (by decide) rfl (by decide) (by decide)
    (.inr (by decide)) (.inr (by decide))
  obtain ⟨byte, table, found, -, data, -⟩ := read 3#32 (by decide)
  exact ⟨space, after, byte, table, done, found, data (by decide) (by decide)⟩

end Nachos.Userprog
