import Nachos.Userprog.Loading

/-! The reads of the linear loader, one by one, for headers with any sizes and places in them. -/

namespace Nachos.Userprog

/-- One read of the constructor: an index of the page table and the place inside its frame. -/
structure Transfer where
  page : Nat
  offset : Nat
  numBytes : BitVec 32
  position : BitVec 32
  deriving DecidableEq

/-- Look the frame up, read from the file, and store what came. -/
def Transfer.perform (file : Executable) (table : List TranslationEntry) (memory : Memory)
    (transfer : Transfer) : Except Fault Memory := do
  let number ← frameOf table transfer.page
  let bytes ← file.readAt transfer.numBytes transfer.position
  return Blocks.setCells memory (number * pageSize + transfer.offset) bytes

/-- The bytes in so many pages, as an `int` that counts them page by page. -/
def bytesIn (pages : Nat) : BitVec 32 := BitVec.ofNat 32 (pages * pageSize)

/-- One page more. -/
theorem bytesIn_succ (pages : Nat) : bytesIn (pages + 1) = bytesIn pages + pageBytes := by
  -- The byte count is multiplied out, and addition of words wraps like that of numbers.
  rw [bytesIn, bytesIn, pageBytes, ← BitVec.ofNat_add, Nat.succ_mul]

/-- The count is exact until it leaves the range of `int`. -/
theorem bytesIn_toInt {pages : Nat} (few : pages < 2 ^ 24) :
    (bytesIn pages).toInt = 128 * pages := by
  have page : pageSize = 128 := rfl
  rw [bytesIn, BitVec.toInt_eq_toNat_bmod, BitVec.toNat_ofNat, Int.bmod_def, page]
  omega

section Loader

variable (file : Executable)

/-- Whether the code ends in front of the end of a page. -/
def endsIn (page : Nat) : Bool := file.header.code.size.slt (bytesIn (page + 1))

/-- The read of one page of the code. -/
def codeTransfer (page : Nat) : Transfer where
  page := page
  offset := 0
  numBytes := if endsIn file page then file.header.code.size.srem pageBytes else pageBytes
  position := file.header.code.inFileAddr + bytesIn page

/-- The number of pages the loop over the code reads. -/
def codePages : Nat := (divRoundUp file.header.code.size.toInt pageSize).toNat

/-- Whether `dataMerge` is set after that loop. -/
def merges : Bool := (List.range (codePages file)).any (endsIn file)

/-- The bytes of data asked for behind the code in its last page. -/
def shared : BitVec 32 :=
  if merges file && file.header.initData.size != 0 then
    if file.header.initData.size.slt (mergeRoom file) then file.header.initData.size
    else mergeRoom file
  else 0

/-- The read of the data that shares a page with code. -/
def mergeTransfer : Transfer where
  page := codePages file - 1
  offset := (file.header.code.size.srem pageBytes).toNat
  numBytes := shared file
  position := file.header.initData.inFileAddr

/-- The read of one page of data behind the pages of the code. -/
def dataTransfer (step : Nat) : Transfer where
  page := codePages file + step
  offset := 0
  numBytes :=
    if file.header.initData.size.slt (shared file + bytesIn (step + 1)) then
      file.header.initData.size - (shared file + bytesIn (step + 1) - pageBytes)
    else pageBytes
  position := file.header.initData.inFileAddr + (shared file + bytesIn step)

/-- The bytes of data left for pages of their own. -/
def dataLeft : BitVec 32 :=
  if merges file then file.header.initData.size - mergeRoom file else file.header.initData.size

/-- The number of pages the loop over the data reads. -/
def dataPages : Nat :=
  (divRoundUp (if (dataLeft file).slt 0 then 0 else dataLeft file).toInt pageSize).toNat

/-- All reads of the constructor in their order. -/
def transfers : List Transfer :=
  (List.range (codePages file)).map (codeTransfer file) ++
    ((if merges file && file.header.initData.size != 0 then [mergeTransfer file] else []) ++
      (List.range (dataPages file)).map (dataTransfer file))

/-- The reads are those of the loops, and the one between them if there is data to merge. -/
theorem mem_transfers {transfer : Transfer} : transfer ∈ transfers file ↔
    (∃ page < codePages file, transfer = codeTransfer file page) ∨
    ((merges file = true ∧ file.header.initData.size ≠ 0) ∧ transfer = mergeTransfer file) ∨
    ∃ step < dataPages file, transfer = dataTransfer file step := by
  -- The three parts of the list are the three parts of the statement.
  simp only [transfers, List.mem_append, List.mem_map, List.mem_range, eq_comm]
  refine or_congr_right (or_congr_left ?_)
  split
  · rename_i merge
    simpa using fun _ => merge
  · rename_i alone
    simpa using fun merge some => absurd (by simp [merge, some]) alone

variable (table : List TranslationEntry)

/-- The loop over the code performs the reads of its pages. -/
theorem loadCode_eq (count : Nat) : ∀ (memory : Memory) (start : Nat) (dataMerge : Bool),
    loadCode file table count memory start (bytesIn start) dataMerge =
      ((List.range' start count).map (codeTransfer file)).foldlM (Transfer.perform file table)
        memory >>= fun memory =>
          .ok (memory, start + count,
            dataMerge || (List.range' start count).any (endsIn file)) := by
  induction count with
  -- No turn is left, so nothing is read and the flag stays.
  | zero =>
    intro memory start dataMerge
    simp [loadCode, Runs.ok_bind, Pure.pure, Except.pure]
  | succ count ih =>
    intro memory start dataMerge
    -- The first turn reads its page, and the flag remembers whether the code ends in it.
    rw [loadCode, List.range'_succ, List.map_cons, List.foldlM_cons, List.any_cons]
    simp only [Transfer.perform, codeTransfer, endsIn, bytesIn_succ, bind_assoc, pure_bind,
      Nat.add_zero]
    refine bind_congr fun number => bind_congr fun bytes => ?_
    rw [← bytesIn_succ, ih, Nat.add_right_comm, Nat.add_assoc]
    simp only [Bool.or_assoc]

/-- The data behind the code is read by at most one transfer. -/
theorem mergeData_eq (memory : Memory) :
    mergeData file table (merges file) memory (codePages file) =
      (if merges file && file.header.initData.size != 0 then [mergeTransfer file] else []).foldlM
        (Transfer.perform file table) memory >>= fun memory =>
        .ok (memory, shared file) := by
  unfold mergeData shared
  split
  · rename_i merge
    -- There is data to merge, and it is read behind the code of the last page.
    simp only [List.foldlM_cons, List.foldlM_nil, Transfer.perform, mergeTransfer, shared, merge,
      if_true, bind_assoc, pure_bind]
    rfl
  · rfl

/-- The loop over the data performs the reads of its pages. -/
theorem loadData_eq (count : Nat) : ∀ (memory : Memory) (start : Nat),
    loadData file table count memory (codePages file + start) (shared file + bytesIn start) =
      ((List.range' start count).map (dataTransfer file)).foldlM (Transfer.perform file table)
        memory := by
  induction count with
  | zero => exact fun _ _ => rfl
  -- Each turn reads one page and counts one page of bytes.
  | succ count ih =>
    intro memory start
    rw [loadData, List.range'_succ, List.map_cons, List.foldlM_cons]
    simp only [Transfer.perform, dataTransfer, bytesIn_succ, bind_assoc, pure_bind, Nat.add_zero,
      ← BitVec.add_assoc]
    refine bind_congr fun number => bind_congr fun bytes => ?_
    rw [BitVec.add_assoc, ← bytesIn_succ, Nat.add_assoc, ih]

/-- The constructor performs its reads one after the other. -/
theorem loadSegments_eq (memory : Memory) : loadSegments file table memory =
    (transfers file).foldlM (Transfer.perform file table) memory := by
  -- The loop over the code starts at page 0 with no bytes read.
  have code : loadCode file table (codePages file) memory 0 0 false =
      ((List.range (codePages file)).map (codeTransfer file)).foldlM
        (Transfer.perform file table) memory >>= fun memory =>
          .ok (memory, codePages file, merges file) := by
    have loop := loadCode_eq file table (codePages file) memory 0 false
    rwa [Nat.zero_add, Bool.false_or, ← List.range_eq_range'] at loop
  -- The loop over the data starts behind the code, with the merged bytes already read.
  have data (memory : Memory) : loadData file table (dataPages file) memory (codePages file)
      (shared file) = ((List.range (dataPages file)).map (dataTransfer file)).foldlM
        (Transfer.perform file table) memory := by
    have none : shared file + bytesIn 0 = shared file := by simp [bytesIn]
    have loop := loadData_eq file table (dataPages file) memory 0
    rwa [← List.range_eq_range', none] at loop
  calc loadSegments file table memory
    _ = loadCode file table (codePages file) memory 0 0 false >>= fun read =>
          mergeData file table read.2.2 read.1 read.2.1 >>= fun merged =>
            loadData file table (divRoundUp (if (if read.2.2 then file.header.initData.size -
              mergeRoom file else file.header.initData.size).slt 0 then 0 else if read.2.2 then
                file.header.initData.size - mergeRoom file else
                  file.header.initData.size).toInt pageSize).toNat merged.1 read.2.1 merged.2 := rfl
    _ = _ := by
      rw [code, transfers, List.foldlM_append, bind_assoc]
      -- The code comes first, and its loop leaves its number of pages and the flag.
      refine bind_congr fun middle => ?_
      rw [Runs.ok_bind, mergeData_eq, List.foldlM_append, bind_assoc]
      -- The merge follows, and leaves the number of bytes it took.
      refine bind_congr fun last => ?_
      rw [Runs.ok_bind, ← data]
      rfl

/-- Every page the constructor looks up is in its table, and every read stays inside its frame. -/
def LoadsInside (memory : Memory) : Prop :=
  ∀ before transfer rest reached, transfers file = before ++ transfer :: rest →
    before.foldlM (Transfer.perform file table) memory = .ok reached →
    transfer.page < table.length ∧ (transfer.offset : Int) + transfer.numBytes.toInt ≤ pageSize

end Loader

section Order

variable {file : Executable} {table : List TranslationEntry} {frame : Nat → Nat}

/-- A read succeeds for a page of the table and a place that is not in front of the file. -/
theorem Mapped.perform_iff (mapped : Mapped table frame) (memory : Memory) (transfer : Transfer) :
    (∃ after, transfer.perform file table memory = .ok after) ↔
      transfer.page < table.length ∧ 0 ≤ transfer.position.toInt := by
  constructor
  · -- A read that succeeds has found its frame and a place in the file.
    rintro ⟨after, done⟩
    obtain ⟨number, found, done⟩ := Runs.bind_eq_ok.mp done
    obtain ⟨bytes, read, -⟩ := Runs.bind_eq_ok.mp done
    exact ⟨(frameOf_ok found).1, (Executable.readAt_getD read).1⟩
  · -- Conversely the frame is found in the table and the file gives bytes or zeros.
    rintro ⟨inside, natural⟩
    obtain ⟨bytes, read⟩ := Executable.readAt_ok transfer.numBytes natural
    exact ⟨_, Runs.bind_eq_ok.mpr ⟨_, mapped.located _ inside,
      Runs.bind_eq_ok.mpr ⟨bytes, read, rfl⟩⟩⟩

/-- Reads succeed one after the other when each of them does. -/
theorem Mapped.foldlM_iff (mapped : Mapped table frame) (list : List Transfer) :
    ∀ memory : Memory, (∃ after, list.foldlM (Transfer.perform file table) memory = .ok after) ↔
      ∀ transfer ∈ list, transfer.page < table.length ∧ 0 ≤ transfer.position.toInt := by
  induction list with
  | nil => exact fun memory => ⟨fun _ _ member => (nomatch member), fun _ => ⟨memory, rfl⟩⟩
  | cons first rest ih =>
    intro memory
    rw [List.forall_mem_cons, List.foldlM_cons, ← mapped.perform_iff memory first]
    constructor
    · -- The whole list succeeds when its first read does and the rest after it.
      rintro ⟨after, done⟩
      obtain ⟨middle, begun, done⟩ := Runs.bind_eq_ok.mp done
      exact ⟨⟨middle, begun⟩, (ih middle).mp ⟨after, done⟩⟩
    · rintro ⟨⟨middle, begun⟩, later⟩
      obtain ⟨after, done⟩ := (ih middle).mpr later
      exact ⟨after, Runs.bind_eq_ok.mpr ⟨middle, begun, done⟩⟩

/-- The constructor goes through the page table from its beginning. -/
theorem transfers_pairwise (file : Executable) :
    (transfers file).Pairwise fun first second => first.page ≤ second.page := by
  -- Ranges are sorted, and both loops keep their order.
  have rising (count : Nat) : (List.range count).Pairwise (· ≤ ·) :=
    List.pairwise_lt_range.imp Nat.le_of_lt
  rw [transfers, List.pairwise_append, List.pairwise_append]
  refine ⟨?_, ⟨?_, ?_, ?_⟩, ?_⟩
  · -- Pages of the code are in order among themselves.
    exact List.pairwise_map.mpr ((rising _).imp fun below => below)
  · split
    · exact List.pairwise_singleton _ _
    · exact .nil
  · -- So are the pages of the data.
    exact List.pairwise_map.mpr ((rising _).imp (Nat.add_le_add_left · _))
  · -- The merged read goes into the last page of the code, in front of the data.
    intro first member second behind
    obtain ⟨step, -, rfl⟩ := List.mem_map.mp behind
    split at member
    · rw [List.mem_singleton.mp member]
      exact Nat.le_trans (Nat.sub_le _ _) (Nat.le_add_right _ step)
    · cases member
  · intro first member second later
    obtain ⟨page, inside, rfl⟩ := List.mem_map.mp member
    have small := List.mem_range.mp inside
    -- The shared page is the last one of the code, and the pages of the data come behind it.
    rcases List.mem_append.mp later with shares | behind
    · split at shares
      · rw [List.mem_singleton.mp shares]
        exact Nat.le_pred_of_lt small
      · cases shares
    · obtain ⟨step, -, rfl⟩ := List.mem_map.mp behind
      exact Nat.le_trans (Nat.le_of_lt small) (Nat.le_add_right _ step)

/-- Reads go wrong exactly when a page behind the table is reached without an earlier stop. -/
theorem Mapped.loadsInside_iff (mapped : Mapped table frame) (memory : Memory)
    (short : ∀ transfer ∈ transfers file, transfer.page < table.length →
      (transfer.offset : Int) + transfer.numBytes.toInt ≤ pageSize) :
    LoadsInside file table memory ↔
      (∀ transfer ∈ transfers file, transfer.page < table.length) ∨
      ∃ transfer ∈ transfers file, transfer.page < table.length ∧ transfer.position.toInt < 0 := by
  constructor
  · -- Suppose a page behind the table is looked up and no place in front of the file stops it.
    intro inside
    by_contra wrong
    push Not at wrong
    obtain ⟨⟨wild, member, outside⟩, natural⟩ := wrong
    -- The reads in front of the first wild one all succeed, so it is reached.
    have some : ((transfers file).find? fun transfer => table.length ≤ transfer.page).isSome :=
      List.find?_isSome.mpr ⟨wild, member, decide_eq_true outside⟩
    obtain ⟨first, found⟩ := Option.isSome_iff_exists.mp some
    obtain ⟨late, before, rest, split, earlier⟩ := List.find?_eq_some_iff_append.mp found
    obtain ⟨reached, done⟩ := (mapped.foldlM_iff before memory).mpr fun transfer passed => by
      have small : transfer.page < table.length := by simpa using earlier transfer passed
      exact ⟨small, natural transfer (split ▸ List.mem_append_left _ passed) small⟩
    have here := (inside before first rest reached split done).1
    exact absurd here (Nat.not_lt.mpr (of_decide_eq_true late))
  · -- A read that is reached has only successful reads before it.
    intro either before transfer rest reached split done
    have fine := (mapped.foldlM_iff before memory).mp ⟨reached, done⟩
    have member : transfer ∈ transfers file := by
      rw [split]
      exact List.mem_append_right _ List.mem_cons_self
    suffices inside : transfer.page < table.length from ⟨inside, short transfer member inside⟩
    rcases either with all | ⟨early, listed, small, negative⟩
    · exact all transfer member
    · -- A negative place stops the constructor, so it comes at this read or later.
      by_contra outside
      have order := transfers_pairwise file
      rw [split] at listed order
      rcases List.mem_append.mp listed with passed | later
      · have natural := (fine early passed).2
        omega
      · rcases List.mem_cons.mp later with rfl | behind
        · exact outside small
        · -- Later reads have no smaller pages, so a small page behind a large one is impossible.
          have after := List.rel_of_pairwise_cons (List.pairwise_append.mp order).2.1 behind
          omega

end Order

section Sizes

variable {file : Executable}

/-- A size that is negative or zero needs no page. -/
theorem divRoundUp_nonpos {size : Int} (empty : size ≤ 0) : divRoundUp size 128 ≤ 0 := by
  -- Division rounds towards zero, so it is that of the opposite number.
  obtain ⟨count, same⟩ := Int.eq_ofNat_of_zero_le (Int.neg_nonneg_of_nonpos empty)
  obtain rfl : size = -count := by omega
  rw [divRoundUp, Int.neg_tdiv, Int.neg_tmod, Int.tdiv_eq_ediv_of_nonneg (by omega),
    Int.tmod_eq_emod_of_nonneg (by omega)]
  split <;> omega

/-- The loop over the code reads the pages that begin in front of its end. -/
theorem lt_codePages {page : Nat} :
    page < codePages file ↔ 128 * (page : Int) < file.header.code.size.toInt := by
  have size : (pageSize : Int) = 128 := rfl
  rw [codePages, size]
  -- The number of pages is the size divided by 128 and rounded up.
  by_cases natural : 0 ≤ file.header.code.size.toInt
  · have bounds := divRoundUp_bounds natural
    omega
  · have none := divRoundUp_nonpos (show file.header.code.size.toInt ≤ 0 by omega)
    omega

/-- The data begins in the last page of the code when the code does not fill it. -/
theorem merges_iff (few : codePages file < 2 ^ 24) : merges file = true ↔
    0 < file.header.code.size.toInt ∧ file.header.code.size.toInt % 128 ≠ 0 := by
  rw [merges, List.any_eq_true]
  constructor
  · -- A page in which the code ends is not filled by it.
    rintro ⟨page, member, ends⟩
    have inside := List.mem_range.mp member
    have begun := lt_codePages.mp inside
    rw [endsIn, BitVec.slt_eq_decide, bytesIn_toInt (by omega), decide_eq_true_eq] at ends
    omega
  · rintro ⟨positive, partly⟩
    -- The page that ends the code is the one its last byte is in.
    have last : 128 * ((file.header.code.size.toInt / 128).toNat : Int) <
      file.header.code.size.toInt := by omega
    have inside := lt_codePages.mpr last
    refine ⟨_, List.mem_range.mpr inside, ?_⟩
    rw [endsIn, BitVec.slt_eq_decide, bytesIn_toInt (by omega), decide_eq_true_eq]
    omega

/-- The room behind the code in its last page. -/
theorem mergeRoom_toInt (natural : 0 ≤ file.header.code.size.toInt) :
    (mergeRoom file).toInt = 128 - file.header.code.size.toInt % 128 := by
  have whole : pageBytes.toInt = 128 := by decide
  have remainder := srem_pageBytes_toInt natural
  rw [mergeRoom, BitVec.toInt_sub, whole, Int.bmod_def]
  omega

/-- The loop over the data reads the pages that its rest begins. -/
theorem lt_dataPages {step : Nat} :
    step < dataPages file ↔ 128 * (step : Int) < (dataLeft file).toInt := by
  have size : (pageSize : Int) = 128 := rfl
  have zero : (0 : BitVec 32).toInt = 0 := rfl
  rw [dataPages, size, BitVec.slt_eq_decide, zero]
  simp only [decide_eq_true_eq]
  -- A rest in front of zero reads no page, and otherwise the number is rounded up.
  split
  · have none := divRoundUp_nonpos (show (0 : BitVec 32).toInt ≤ 0 by decide)
    omega
  · have bounds := divRoundUp_bounds (show 0 ≤ (dataLeft file).toInt by omega)
    omega

/-- The pages of the code reach to its end and no further. -/
theorem codePages_bounds : max file.header.code.size.toInt 0 ≤ 128 * (codePages file : Int) ∧
    128 * (codePages file : Int) < max file.header.code.size.toInt 0 + 128 := by
  have end_ := (@lt_codePages file (codePages file)).not.mp (Nat.lt_irrefl _)
  refine ⟨by omega, ?_⟩
  -- The last page that is read still begins in front of the end.
  by_cases some : 0 < codePages file
  · have last := (@lt_codePages file (codePages file - 1)).mp (by omega)
    omega
  · omega

/-- Data is merged only behind code. -/
theorem codePages_pos (merge : merges file = true) :
    0 < codePages file ∧ 0 < file.header.code.size.toInt := by
  -- The flag is set by a page of the loop, so the loop has a turn.
  obtain ⟨page, member, -⟩ := List.any_eq_true.mp merge
  have inside := List.mem_range.mp member
  have begun := lt_codePages.mp inside
  omega

/-- What is asked for behind the code fits there. -/
theorem shared_toInt : (shared file).toInt = if merges file then
    min file.header.initData.size.toInt (128 - file.header.code.size.toInt % 128) else 0 := by
  have zero : (0 : BitVec 32).toInt = 0 := rfl
  cases merge : merges file with
  | false => simp [shared, merge]
  | true =>
    have room := mergeRoom_toInt (Int.le_of_lt (codePages_pos merge).2)
    -- Without data nothing is asked for, which is also the smaller of the two.
    by_cases none : file.header.initData.size = 0
    · simp only [shared, merge, none, bne_self_eq_false, Bool.and_false, Bool.false_eq_true,
        if_false, if_true, zero]
      omega
    · simp only [shared, merge, bne_iff_ne, ne_eq, none, not_false_iff, if_true,
        BitVec.slt_eq_decide, decide_eq_true_eq, room, Bool.true_and]
      -- The smaller one of the data and the room is asked for.
      split
      · omega
      · rw [room]
        omega

/-- The rest of the data, which wraps when more is subtracted than an `int` can hold. -/
theorem toInt_dataLeft : (dataLeft file).toInt = if merges file then
    let rest := file.header.initData.size.toInt - (128 - file.header.code.size.toInt % 128)
    if rest < -2 ^ 31 then rest + 2 ^ 32 else rest
    else file.header.initData.size.toInt := by
  unfold dataLeft
  split
  · rename_i merge
    have room := mergeRoom_toInt (Int.le_of_lt (codePages_pos merge).2)
    have high := file.header.initData.size.toInt_lt
    have low := file.header.initData.size.le_toInt
    -- The room is subtracted as a word, which wraps at most once.
    rw [BitVec.toInt_sub, room, Int.bmod_def]
    dsimp only
    split <;> omega
  · rfl

/-- The place in the data that a page of the address space begins with. -/
theorem toInt_offset {step : Nat} (few : step < numPhysPages) :
    (shared file + bytesIn step).toInt = (shared file).toInt + 128 * step := by
  have frames : numPhysPages = 32 := rfl
  -- At most a page is shared, so the sum is far inside the range of `int`.
  have high : (shared file).toInt ≤ 128 := by
    rw [shared_toInt]
    split <;> omega
  have low := (shared file).le_toInt
  rw [BitVec.toInt_add, bytesIn_toInt (by omega), Int.bmod_def]
  omega

/-- The subtraction that counts the rest of the data leaves the range of `int`. -/
def Wraps (file : Executable) : Prop :=
  0 < file.header.code.size.toInt ∧ file.header.code.size.toInt % pageSize ≠ 0 ∧
    file.header.initData.size.toInt + 2 ^ 31 < pageSize - file.header.code.size.toInt % pageSize

instance (file : Executable) : Decidable (Wraps file) := inferInstanceAs (Decidable (_ ∧ _ ∧ _))

/-- Pages of data lie inside the data that was not merged, unless its count wraps. -/
theorem of_lt_dataPages {step : Nat} (early : step < dataPages file) :
    (shared file).toInt = file.header.initData.size.toInt ∧
      file.header.initData.size.toInt < 0 ∧ merges file = true ∧
      file.header.initData.size.toInt + 2 ^ 31 < 128 - file.header.code.size.toInt % 128 ∨
    0 ≤ (shared file).toInt ∧
      (shared file).toInt + 128 * step < file.header.initData.size.toInt := by
  -- The rest of the data decides how many pages there are, and it may have wrapped.
  have some := lt_dataPages.mp early
  rw [toInt_dataLeft] at some
  rw [shared_toInt]
  cases merge : merges file with
  | false =>
    simp only [merge, Bool.false_eq_true, if_false] at some ⊢
    omega
  | true =>
    -- Either the subtraction wrapped, or the rest is what it should be.
    simp only [merge, if_true, true_and] at some ⊢
    split at some <;> omega

/-- Data that is left for pages of its own fills the last page of the code first. -/
theorem shared_of_lt (few : codePages file < 2 ^ 24)
    (rest : (shared file).toInt < file.header.initData.size.toInt) :
    (shared file).toInt = 128 * (codePages file : Int) - max file.header.code.size.toInt 0 := by
  have partly := merges_iff few
  obtain ⟨enough, tight⟩ := @codePages_bounds file
  rw [shared_toInt] at rest ⊢
  -- No page of the code is left partly empty, so nothing is shared and the pages end with the code.
  cases merge : merges file with
  | false =>
    simp only [merge, Bool.false_eq_true, if_false, false_iff] at rest partly ⊢
    omega
  | true =>
    -- The room was smaller than the data, so all of it was asked for.
    simp only [merge, if_true, true_iff] at rest partly ⊢
    omega

/-- The place in the data that a page of data begins with, counted from the end of the code. -/
theorem offset_eq {step : Nat} (few : codePages file + step < numPhysPages)
    (rest : (shared file).toInt < file.header.initData.size.toInt) :
    shared file + bytesIn step = BitVec.ofInt 32 (((codePages file + step) * 128 : Nat) -
      max file.header.code.size.toInt 0) := by
  have frames : numPhysPages = 32 := rfl
  -- The shared bytes fill the last page of the code, so the data behind it is page aligned.
  have fills := shared_of_lt (by omega) rest
  obtain ⟨enough, -⟩ := @codePages_bounds file
  refine BitVec.eq_of_toInt_eq ?_
  rw [toInt_offset (by omega), BitVec.toInt_ofInt, Int.bmod_def]
  omega

/-- Every read stays inside its frame, as long as the table has its page. -/
theorem transfers_short (few : file.numPages ≤ numPhysPages) {transfer : Transfer}
    (member : transfer ∈ transfers file) (inside : transfer.page < file.numPages) :
    (transfer.offset : Int) + transfer.numBytes.toInt ≤ pageSize := by
  have size : (pageSize : Int) = 128 := rfl
  have frames : numPhysPages = 32 := rfl
  have whole : pageBytes.toInt = 128 := by decide
  rw [size]
  rcases (mem_transfers file).mp member with ⟨page, early, rfl⟩ | ⟨⟨merge, -⟩, rfl⟩ |
    ⟨step, early, rfl⟩
  · -- A page of the code is read whole, or up to the end of the code.
    have begun := lt_codePages.mp early
    have remainder := srem_pageBytes_toInt (show 0 ≤ file.header.code.size.toInt by omega)
    simp only [codeTransfer]
    split
    · rw [remainder]
      omega
    · rw [whole]
      rfl
  · -- What is asked for is what the last page of the code has room for.
    have natural := (codePages_pos merge).2
    have remainder := srem_pageBytes_toInt (Int.le_of_lt natural)
    have both := BitVec.toInt_eq_toNat_bmod (file.header.code.size.srem pageBytes)
    rw [Int.bmod_def] at both
    simp only [mergeTransfer, shared_toInt, merge, if_true]
    omega
  · -- A page of data is read whole, or up to the end of the data.
    have few : step < numPhysPages := by
      simp only [dataTransfer] at inside
      omega
    have here := @toInt_offset file step few
    have high : (shared file).toInt ≤ 128 := by
      rw [shared_toInt]
      split <;> omega
    have low := (shared file).le_toInt
    have next : (shared file + bytesIn step + pageBytes).toInt =
        (shared file).toInt + 128 * step + 128 := by
      rw [BitVec.toInt_add, here, whole, Int.bmod_def]
      omega
    simp only [dataTransfer, bytesIn_succ, ← BitVec.add_assoc, BitVec.add_sub_cancel]
    rw [BitVec.slt_eq_decide, next]
    -- The last page asks for the difference of two places, which is less than a page.
    by_cases last : file.header.initData.size.toInt < (shared file).toInt + 128 * step + 128
    · rw [if_pos (decide_eq_true last), BitVec.toInt_sub, here, Int.bmod_def]
      have some := of_lt_dataPages early
      omega
    · rw [if_neg (by simpa using last), whole]
      rfl

/-- The sizes of code and data, if they are positive, fit into the pages of the address space. -/
def SegmentsFit (file : Executable) : Prop :=
  max file.header.code.size.toInt 0 + max file.header.initData.size.toInt 0 ≤
    file.numPages * pageSize ∧ ¬ Wraps file

instance (file : Executable) : Decidable (SegmentsFit file) := inferInstanceAs (Decidable (_ ∧ _))

/--
The read of some page of the address space begins in front of the file, which stops Nachos.

It is a page of the code, the page where the data begins behind the code, a page with data only, or
the page behind the code when the count of the data wraps.
-/
def StopsEarly (file : Executable) : Prop :=
  let code := file.header.code
  let data := file.header.initData
  ∃ page < file.numPages,
    ((page * pageSize : Nat) < code.size.toInt ∧
      (code.inFileAddr + BitVec.ofNat 32 (page * pageSize)).toInt < 0) ∨
    ((page * pageSize : Nat) < code.size.toInt ∧ code.size.toInt < ((page + 1) * pageSize : Nat) ∧
      data.size ≠ 0 ∧ data.inFileAddr.toInt < 0) ∨
    (max code.size.toInt 0 ≤ (page * pageSize : Nat) ∧
      (page * pageSize : Nat) < max code.size.toInt 0 + data.size.toInt ∧
      (data.inFileAddr + BitVec.ofInt 32 ((page * pageSize : Nat) - max code.size.toInt 0)).toInt <
        0) ∨
    (Wraps file ∧ code.size.toInt ≤ (page * pageSize : Nat) ∧
      (data.inFileAddr + data.size).toInt < 0)

instance (file : Executable) : Decidable (StopsEarly file) :=
  inferInstanceAs (Decidable (∃ page, page < file.numPages ∧ _))

/-- The pages of all reads are pages of the address space exactly when the segments fit. -/
theorem pages_iff (few : file.numPages ≤ numPhysPages) :
    (∀ transfer ∈ transfers file, transfer.page < file.numPages) ↔ SegmentsFit file := by
  have size : (pageSize : Int) = 128 := rfl
  have frames : numPhysPages = 32 := rfl
  obtain ⟨enough, tight⟩ := @codePages_bounds file
  -- Both sides count the pages of the code and of the data.
  have counted : (∀ transfer ∈ transfers file, transfer.page < file.numPages) ↔
      codePages file + dataPages file ≤ file.numPages := by
    constructor
    · -- The last page that is read is the largest one, so it is enough to look at it.
      intro all
      by_cases some : 0 < dataPages file
      · have last := all (dataTransfer file (dataPages file - 1))
          ((mem_transfers file).mpr (.inr (.inr ⟨_, by omega, rfl⟩)))
        simp only [dataTransfer] at last
        omega
      · by_cases some : 0 < codePages file
        · have last := all (codeTransfer file (codePages file - 1))
            ((mem_transfers file).mpr (.inl ⟨_, by omega, rfl⟩))
          simp only [codeTransfer] at last
          omega
        · omega
    · -- Every page that is read comes before the sum.
      intro total transfer member
      rcases (mem_transfers file).mp member with ⟨page, early, rfl⟩ | ⟨⟨merge, -⟩, rfl⟩ |
        ⟨step, early, rfl⟩
      · simp only [codeTransfer]
        omega
      · have some := (codePages_pos merge).1
        simp only [mergeTransfer]
        omega
      · simp only [dataTransfer]
        omega
  rw [counted, SegmentsFit, Wraps, size]
  -- The pages of the code fit, so the rest of the data decides.
  by_cases room : codePages file ≤ file.numPages
  · have end_ := (@lt_dataPages file (dataPages file)).not.mp (Nat.lt_irrefl _)
    have last : dataPages file = 0 ∨
        128 * ((dataPages file : Int) - 1) < (dataLeft file).toInt := by
      by_cases some : 0 < dataPages file
      · have begun := (@lt_dataPages file (dataPages file - 1)).mp (by omega)
        omega
      · omega
    have partly := @merges_iff file (by omega)
    have low := file.header.initData.size.le_toInt
    rw [toInt_dataLeft] at end_ last
    cases merge : merges file with
    | false =>
      simp only [merge, Bool.false_eq_true, if_false, false_iff] at end_ last partly
      omega
    | true =>
      simp only [merge, if_true, true_iff] at end_ last partly
      split at end_ <;> omega
  · -- Already the code has too many pages, and then both sides fail.
    omega

/-- A read of the address space stops Nachos exactly when it begins in front of the file. -/
theorem stops_iff (few : file.numPages ≤ numPhysPages) :
    (∃ transfer ∈ transfers file, transfer.page < file.numPages ∧ transfer.position.toInt < 0) ↔
      StopsEarly file := by
  have size : pageSize = 128 := rfl
  have frames : numPhysPages = 32 := rfl
  obtain ⟨enough, tight⟩ := @codePages_bounds file
  simp only [StopsEarly, Wraps, size]
  constructor
  · rintro ⟨transfer, member, inside, negative⟩
    rcases (mem_transfers file).mp member with ⟨page, early, rfl⟩ | ⟨⟨merge, some⟩, rfl⟩ |
      ⟨step, early, rfl⟩
    · -- A page of the code begins in front of the file.
      have begun := lt_codePages.mp early
      exact ⟨page, inside, .inl ⟨by omega, negative⟩⟩
    · -- The data begins in the last page of the code, and in front of the file.
      have partly := (@merges_iff file (by simp only [mergeTransfer] at inside; omega)).mp merge
      refine ⟨codePages file - 1, inside, .inr (.inl ⟨?_, ?_, some, negative⟩)⟩
      · omega
      · omega
    · simp only [dataTransfer] at inside negative
      rcases of_lt_dataPages early with ⟨all, below, merge, wraps⟩ | ⟨natural, rest⟩
      · -- The count wraps, so the place of the data in the file and its size decide.
        have partly := (@merges_iff file (by omega)).mp merge
        have some : file.header.initData.size ≠ 0 := by
          intro none
          rw [none] at below
          exact absurd below (by decide)
        by_cases begins : file.header.initData.inFileAddr.toInt < 0
        · refine ⟨codePages file - 1, by omega, .inr (.inl ⟨?_, ?_, some, begins⟩)⟩
          · omega
          · omega
        · refine ⟨codePages file + step, inside, .inr (.inr (.inr ⟨?_, ?_, ?_⟩))⟩
          · exact ⟨partly.1, partly.2, wraps⟩
          · omega
          · have high := file.header.initData.inFileAddr.toInt_lt
            have low := file.header.initData.size.le_toInt
            rw [BitVec.toInt_add, toInt_offset (by omega), all, Int.bmod_def] at negative
            rw [BitVec.toInt_add, Int.bmod_def]
            omega
      · -- The data of this page begins in front of the file, counted from the end of the code.
        have fills := @shared_of_lt file (by omega) (by omega)
        rw [offset_eq (by omega) (by omega)] at negative
        refine ⟨codePages file + step, inside, .inr (.inr (.inl ⟨?_, ?_, negative⟩))⟩
        · omega
        · omega
  · rintro ⟨page, inside, ⟨begun, negative⟩ | ⟨begun, ends, some, negative⟩ |
      ⟨behind, some, negative⟩ | ⟨wraps, behind, negative⟩⟩
    · -- Conversely the page of code is read.
      have early := (@lt_codePages file page).mpr (by omega)
      exact ⟨_, (mem_transfers file).mpr (.inl ⟨page, early, rfl⟩), inside, negative⟩
    · -- The code ends inside a page, so the data there is read, too.
      have merge := (@merges_iff file (by omega)).mpr ⟨by omega, by omega⟩
      refine ⟨_, (mem_transfers file).mpr (.inr (.inl ⟨⟨merge, some⟩, rfl⟩)), ?_, negative⟩
      simp only [mergeTransfer]
      omega
    · -- Data is left for this page, since the code ends in front of it.
      obtain ⟨step, rfl⟩ := Nat.exists_eq_add_of_le (show codePages file ≤ page by omega)
      have partly := @merges_iff file (by omega)
      have rest : (shared file).toInt < file.header.initData.size.toInt ∧
          128 * (step : Int) < (dataLeft file).toInt := by
        rw [shared_toInt, toInt_dataLeft]
        cases merge : merges file with
        | false =>
          simp only [merge, Bool.false_eq_true, if_false, false_iff] at partly ⊢
          omega
        | true =>
          simp only [merge, if_true, true_iff] at partly ⊢
          split <;> omega
      have early := lt_dataPages.mpr rest.2
      refine ⟨_, (mem_transfers file).mpr (.inr (.inr ⟨step, early, rfl⟩)), inside, ?_⟩
      simp only [dataTransfer]
      rwa [offset_eq (by omega) rest.1]
    · -- When the count wraps, the first page behind the code is read with a wrapped place.
      have merge := (@merges_iff file (by omega)).mpr ⟨wraps.1, wraps.2.1⟩
      have all : shared file = file.header.initData.size := by
        refine BitVec.eq_of_toInt_eq ?_
        rw [shared_toInt, if_pos merge]
        omega
      have some := (@lt_dataPages file 0).mpr (by
        rw [toInt_dataLeft, if_pos merge]
        have low := file.header.initData.size.le_toInt
        dsimp only
        split <;> omega)
      refine ⟨_, (mem_transfers file).mpr (.inr (.inr ⟨0, some, rfl⟩)), ?_, ?_⟩
      · simp only [dataTransfer]
        omega
      · simpa [dataTransfer, bytesIn, all] using negative

end Sizes

/--
The linear loader stays inside its page table exactly when code and data fit into `numPages` pages.

The sizes count as zero when they are negative, and the count of the data must not wrap. Otherwise a
page behind the table is looked up, unless an earlier read is asked to begin in front of the file.
-/
theorem loadExecutable_inside_iff {kernel : Kernel} {file : Executable}
    (bits : kernel.physicalPageMap.numBits = numPhysPages) (noff : file.header.isNoff = true)
    (small : file.numPages ≤ numPhysPages)
    (clear : file.numPages ≤ kernel.physicalPageMap.numClear) :
    ∃ table filled, kernel.fillTable (fun _ => true) 0 ((List.range file.numPages).map blankEntry) =
        .ok (table, filled) ∧
      table.length = file.numPages ∧
      kernel.loadExecutable file =
        ((transfers file).foldlM (Transfer.perform file table) filled.mainMemory >>= fun memory =>
          .ok (⟨table, 1⟩, { filled with mainMemory := memory })) ∧
      (LoadsInside file table filled.mainMemory ↔ SegmentsFit file ∨ StopsEarly file) := by
  -- There are enough clear frames, so the table gets a frame for every page.
  obtain ⟨⟨table, filled⟩, done⟩ := @Kernel.fillTable_ok ((List.range file.numPages).map
    blankEntry) kernel 0 (by simpa using clear)
  obtain ⟨length, mapped, -, -⟩ := Kernel.fillTable_mapped bits done
  -- What remains of the constructor are its reads.
  refine ⟨table, filled, done, length, ?_, ?_⟩
  · unfold Kernel.loadExecutable
    dsimp only
    rw [if_pos ⟨noff, small, clear⟩, done, Runs.ok_bind, loadSegments_eq]
    rfl
  · -- The reads go wrong in the table exactly if they go wrong in the sizes.
    rw [mapped.loadsInside_iff filled.mainMemory (length ▸ fun transfer => transfers_short small),
      length, pages_iff small, stops_iff small]

/-- A header whose sizes add up to the stack alone, although the code has two pages too many. -/
def wrappingProgram : Executable where
  header := ⟨true, ⟨0#32, 0#32, 1280#32⟩, ⟨0#32, 0#32, 0#32⟩, ⟨0#32, 0#32, -1280#32⟩⟩
  contents := [1#8]
  fits := by decide

/-- The loader accepts the header and looks up pages behind its table. -/
theorem not_loadExecutable_inside_wrapping :
    wrappingProgram.header.isNoff = true ∧ wrappingProgram.numPages ≤ numPhysPages ∧
      wrappingProgram.numPages ≤ firstKernel.physicalPageMap.numClear ∧
      ∃ table filled, firstKernel.fillTable (fun _ => true) 0
          ((List.range wrappingProgram.numPages).map blankEntry) = .ok (table, filled) ∧
        ¬ LoadsInside wrappingProgram table filled.mainMemory := by
  have small : wrappingProgram.numPages ≤ numPhysPages := by decide
  have clear : wrappingProgram.numPages ≤ firstKernel.physicalPageMap.numClear := by decide
  obtain ⟨⟨table, filled⟩, done⟩ := @Kernel.fillTable_ok ((List.range
    wrappingProgram.numPages).map blankEntry) firstKernel 0 (by simpa using clear)
  obtain ⟨length, mapped, -, -⟩ := Kernel.fillTable_mapped (by decide) done
  refine ⟨rfl, small, clear, table, filled, done, ?_⟩
  -- The sizes of the header decide, and the code has more pages than the header admits.
  rw [mapped.loadsInside_iff filled.mainMemory (length ▸ fun transfer => transfers_short small),
    length, pages_iff small, stops_iff small]
  decide

/-- A header that is honest about its sizes is loaded inside its table. -/
theorem loadExecutable_inside_merged : ∃ table filled,
    firstKernel.fillTable (fun _ => true) 0 ((List.range mergedProgram.numPages).map blankEntry) =
      .ok (table, filled) ∧ LoadsInside mergedProgram table filled.mainMemory := by
  obtain ⟨table, filled, done, -, -, inside⟩ := @loadExecutable_inside_iff firstKernel mergedProgram
    (by decide) rfl (by decide) (by decide)
  exact ⟨table, filled, done, inside.mpr (.inl (by decide))⟩

end Nachos.Userprog
