import Nachos.Machine.TranslateLaws

/-! A page table that gives every page a frame of its own makes main memory look flat. -/

namespace Nachos

/-- The valid entries of a page table name different frames of main memory. -/
structure Linear (entries : List TranslationEntry) : Prop where
  inside : ∀ entry ∈ entries, entry.valid = true →
    0 ≤ entry.physicalPage ∧ entry.physicalPage < numPhysPages
  distinct : ∀ (page other : Nat) (entry entry' : TranslationEntry), entries[page]? = some entry →
    entries[other]? = some entry' → entry.valid = true → entry'.valid = true →
    entry.physicalPage = entry'.physicalPage → page = other

/-- What is left of a value that is stored in so many bytes and loaded again. -/
def truncated (size : Nat) (value : BitVec 32) : BitVec 32 :=
  if size = 1 then (value.setWidth 8).signExtend 32
  else if size = 2 then (value.setWidth 16).setWidth 32
  else value

/-- What is loaded from the bytes that were stored. -/
theorem decodeBytes_encodeBytes {size : Nat} {value : BitVec 32} {bytes : List Byte}
    (encoded : encodeBytes size value = some bytes) :
    decodeBytes bytes = some (truncated size value) := by
  -- The host keeps the sign of a byte, but not of a half word.
  obtain ⟨-, sized⟩ := encodeBytes_some encoded
  rcases sized with rfl | rfl | rfl
  · cases encoded
    rfl
  · cases encoded
    refine congrArg some (BitVec.eq_of_getLsbD_eq fun bit small => ?_)
    simp only [truncated, BitVec.getLsbD_setWidth, BitVec.getLsbD_append, BitVec.getLsbD_extractLsb']
    grind
  · cases encoded
    refine congrArg some (BitVec.eq_of_getLsbD_eq fun bit small => ?_)
    simp only [truncated, BitVec.getLsbD_append, BitVec.getLsbD_extractLsb']
    grind

variable {entries : List TranslationEntry} {table after : TranslationTable}
  {memory next : Memory} {addr addr' value : BitVec 32} {size size' : Nat} {writing writing' : Bool}

section PageTable

variable {position number : Nat} {entry : TranslationEntry}

/-- A page table translates a page by the entry at the place of the page. -/
theorem Translated.valid (hit : Translated (.pageTable entries) addr size writing position entry number) :
    position = virtualPageNumber addr ∧ entries[virtualPageNumber addr]? = some entry ∧
      entry.valid = true := by
  -- A page table is not searched, so the place is the number of the page.
  obtain ⟨rfl, entry', located, valid⟩ := findEntry_pageTable_ok hit.found
  have same := hit.located
  rw [TranslationTable.entries, located] at same
  cases same
  exact ⟨rfl, located, valid⟩

/-- With frames inside main memory a reference ends in an exception or in a frame. -/
theorem Linear.translate (linear : Linear entries) (addr : BitVec 32) (size : Nat) (writing : Bool) :
    (∃ which, translate (.pageTable entries) addr size writing = .error (.exception which)) ∨
      ∃ entry number,
        Translated (.pageTable entries) addr size writing (virtualPageNumber addr) entry number := by
  cases aligned : misaligned addr size with
  | true => exact .inl ⟨.addressError, by rw [Nachos.translate, aligned]; rfl⟩
  | false =>
    cases located : entries[virtualPageNumber addr]? with
    | none =>
      refine .inl ⟨.addressError, ?_⟩
      rw [Nachos.translate, aligned, findEntry, located]
      rfl
    | some entry =>
      cases valid : entry.valid with
      | false =>
        refine .inl ⟨.pageFault, ?_⟩
        simp [Nachos.translate, aligned, findEntry, located, valid]
      | true =>
        have found : findEntry (.pageTable entries) (virtualPageNumber addr) =
            .ok (virtualPageNumber addr) := by
          simp [findEntry, located, valid]
        cases permitted : entry.readOnly && writing with
        | true =>
          refine .inl ⟨.readOnly, ?_⟩
          simp only [Nachos.translate, aligned, found, useEntry, TranslationTable.entries, located,
            permitted]
          rfl
        | false =>
          -- The entry names a frame, so nothing else can go wrong.
          obtain ⟨natural, inside⟩ := linear.inside entry (List.mem_of_getElem? located) valid
          obtain ⟨number, framed⟩ := Int.eq_ofNat_of_zero_le natural
          exact .inr ⟨entry, number, aligned, found, located, permitted, framed, by omega⟩

/-- Setting the bits of an entry changes no translation. -/
theorem translate_touched (entries : List TranslationEntry) (place : Nat) (addr : BitVec 32)
    (size : Nat) (writing writing' : Bool) :
    (translate (.pageTable (entries.modify place (·.touch writing'))) addr size writing).map Prod.fst =
      (translate (.pageTable entries) addr size writing).map Prod.fst := by
  have looked := List.getElem?_modify (·.touch writing') place entries (virtualPageNumber addr)
  cases aligned : misaligned addr size with
  | true => rw [translate, translate, aligned]; rfl
  | false =>
    cases located : entries[virtualPageNumber addr]? with
    | none =>
      rw [located] at looked
      simp [translate, aligned, findEntry, located, looked]
    | some entry =>
      -- The entry keeps everything that the translation reads.
      obtain ⟨entry', found, valid, readOnly, frame⟩ : ∃ entry',
          (entries.modify place (·.touch writing'))[virtualPageNumber addr]? = some entry' ∧
          entry'.valid = entry.valid ∧ entry'.readOnly = entry.readOnly ∧
          entry'.physicalPage = entry.physicalPage := by
        rw [looked, located]
        by_cases same : place = virtualPageNumber addr
        · exact ⟨entry.touch writing', congrArg some (if_pos same), rfl, rfl, rfl⟩
        · exact ⟨entry, congrArg some (if_neg same), rfl, rfl, rfl⟩
      cases present : entry.valid with
      | false => simp [translate, aligned, findEntry, located, found, valid, present]
      | true =>
        simp only [translate, aligned, findEntry, located, found, valid, present, useEntry,
          TranslationTable.entries, Bool.false_eq_true, if_false, if_true]
        simp only [readOnly, frame]
        split
        · rfl
        · split
          · rfl
          · split <;> rfl

/-- A reference that succeeds has found its entry at the place of the page. -/
theorem translate_pageTable {physAddr : Nat}
    (done : translate (.pageTable entries) addr size writing = .ok (physAddr, after)) :
    ∃ entry number, Translated (.pageTable entries) addr size writing (virtualPageNumber addr)
        entry number ∧ entries[virtualPageNumber addr]? = some entry ∧ entry.valid = true ∧
      physAddr = number * pageSize + pageOffset addr ∧
      after = .pageTable (entries.modify (virtualPageNumber addr) (·.touch writing)) := by
  -- What is found in general is found at the place of the page.
  obtain ⟨position, entry, number, hit, placed, rfl⟩ := translate_ok done
  obtain ⟨rfl, located, valid⟩ := hit.valid
  exact ⟨entry, number, hit, located, valid, placed, rfl⟩

end PageTable

/-- An entry of a table whose bits have been set is an entry with the same frame. -/
theorem getElem?_touched {place page : Nat} {entry : TranslationEntry}
    (located : (entries.modify place (·.touch writing))[page]? = some entry) :
    ∃ entry', entries[page]? = some entry' ∧ entry.valid = entry'.valid ∧
      entry.physicalPage = entry'.physicalPage := by
  -- The use and dirty bits do not say which frame it is.
  rw [List.getElem?_modify] at located
  cases found : entries[page]? with
  | none =>
    rw [found] at located
    cases located
  | some entry' =>
    rw [found] at located
    cases located
    refine ⟨entry', rfl, ?_, ?_⟩ <;> split <;> rfl

/-- A reference keeps the frames of the table apart. -/
theorem Linear.touched (linear : Linear entries) (place : Nat) :
    Linear (entries.modify place (·.touch writing)) := by
  -- Both facts are about frames, and the entries before name the same ones.
  refine ⟨?_, ?_⟩
  · intro entry member valid
    obtain ⟨page, located⟩ := List.getElem?_of_mem member
    obtain ⟨entry', located', flag, frame⟩ := getElem?_touched located
    rw [frame]
    exact linear.inside entry' (List.mem_of_getElem? located') (flag ▸ valid)
  · intro page other entry entry' located located' valid valid' equal
    obtain ⟨_, found, flag, frame⟩ := getElem?_touched located
    obtain ⟨_, found', flag', frame'⟩ := getElem?_touched located'
    exact linear.distinct page other _ _ found found' (flag ▸ valid) (flag' ▸ valid')
      (frame ▸ frame' ▸ equal)

/-- The value that `ReadMem` answers with depends on the translated address and on memory. -/
theorem readMem_value (table : TranslationTable) (memory : Memory) (addr : BitVec 32) (size : Nat) :
    (readMem table memory addr size).map Prod.fst =
      match (translate table addr size false).map Prod.fst with
      | .error trap => .error trap
      | .ok physAddr =>
        match decodeBytes (Blocks.cells memory physAddr size) with
        | none => .error .assertion
        | some value => .ok value := by
  -- The table that comes back is dropped on both sides.
  rw [readMem]
  cases translate table addr size false with
  | error trap => rfl
  | ok result =>
    dsimp only [Except.map]
    cases decodeBytes (Blocks.cells memory result.1 size) <;> rfl

/-- Two references of which the first stores, and which do not overlap, reach different bytes. -/
theorem Linear.apart (linear : Linear entries) {entry entry' : TranslationEntry}
    {number number' : Nat}
    (hit : Translated (.pageTable entries) addr size writing (virtualPageNumber addr) entry number)
    (hit' : Translated (.pageTable entries) addr' size' writing' (virtualPageNumber addr') entry'
      number')
    (sized : size = 1 ∨ size = 2 ∨ size = 4) (sized' : size' = 1 ∨ size' = 2 ∨ size' = 4)
    (apart : addr'.toNat + size' ≤ addr.toNat ∨ addr.toNat + size ≤ addr'.toNat) :
    number' * pageSize + pageOffset addr' + size' ≤ number * pageSize + pageOffset addr ∨
      number * pageSize + pageOffset addr + size ≤ number' * pageSize + pageOffset addr' := by
  have fits := pageOffset_add_le hit.aligned sized
  have fits' := pageOffset_add_le hit'.aligned sized'
  obtain ⟨-, located, valid⟩ := hit.valid
  obtain ⟨-, located', valid'⟩ := hit'.valid
  rw [toNat_eq_page_offset addr, toNat_eq_page_offset addr'] at apart
  by_cases same : virtualPageNumber addr = virtualPageNumber addr'
  · -- In one page the offsets are apart.
    rw [same, located'] at located
    cases located
    have frame : number = number' := by
      have framed := hit.framed
      rw [hit'.framed] at framed
      omega
    subst frame
    rw [same] at apart
    omega
  · -- Different pages have different frames.
    have differ : number ≠ number' := by
      intro equal
      refine same (linear.distinct _ _ entry entry' located located' valid valid' ?_)
      rw [hit.framed, hit'.framed, equal]
    simp only [pageSize] at fits fits' ⊢
    omega

/-- A range of main memory inside the frame of a valid entry. -/
def Framed (entries : List TranslationEntry) (physAddr size : Nat) : Prop :=
  ∃ entry ∈ entries, entry.valid = true ∧ ∃ number : Nat, entry.physicalPage = number ∧
    number < numPhysPages ∧ number * pageSize ≤ physAddr ∧
    physAddr + size ≤ (number + 1) * pageSize

/-- A store, what is loaded after it, and the frames that it leaves alone. -/
structure Stored (entries : List TranslationEntry) (memory : Memory) (addr : BitVec 32) (size : Nat)
    (value : BitVec 32) (next : Memory) (after : TranslationTable) : Prop where
  same : (readMem after next addr size).map Prod.fst = .ok (truncated size value)
  others : ∀ (addr' : BitVec 32) (size' : Nat), size' = 1 ∨ size' = 2 ∨ size' = 4 →
    addr'.toNat + size' ≤ addr.toNat ∨ addr.toNat + size ≤ addr'.toNat →
    (readMem after next addr' size').map Prod.fst =
      (readMem (.pageTable entries) memory addr' size').map Prod.fst
  frames : ∀ number : Nat,
    (∀ entry ∈ entries, entry.valid = true → entry.physicalPage ≠ number) →
    Blocks.block pageSize next number = Blocks.block pageSize memory number
  table : ∃ entries', after = .pageTable entries' ∧ Linear entries'

/-- A translation that succeeds stays inside one frame of the table. -/
theorem Linear.framed (linear : Linear entries) (sized : size = 1 ∨ size = 2 ∨ size = 4) :
    (∃ which, Nachos.translate (.pageTable entries) addr size writing = .error (.exception which)) ∨
      ∃ physAddr after, Nachos.translate (.pageTable entries) addr size writing =
        .ok (physAddr, after) ∧ Framed entries physAddr size := by
  rcases linear.translate addr size writing with failed | ⟨entry, number, hit⟩
  · exact .inl failed
  · obtain ⟨-, located, valid⟩ := hit.valid
    -- An aligned reference does not cross the end of its page.
    have fits := pageOffset_add_le hit.aligned sized
    refine .inr ⟨_, _, translate_of_translated hit sized, entry, List.mem_of_getElem? located, valid,
      number, hit.framed, hit.inside, Nat.le_add_right _ _, ?_⟩
    rw [Nat.succ_mul]
    omega

/-- A store that succeeds is seen by loads of its bytes, and by nothing else. -/
theorem Linear.stored (linear : Linear entries)
    (done : writeMem (.pageTable entries) memory addr size value = .ok (next, after)) :
    Stored entries memory addr size value next after := by
  obtain ⟨physAddr, bytes, translated, encoded, rfl⟩ := writeMem_ok done
  obtain ⟨entry, number, hit, located, valid, rfl, rfl⟩ := translate_pageTable translated
  obtain ⟨length, sized⟩ := encodeBytes_some encoded
  have fits := pageOffset_add_le hit.aligned sized
  refine ⟨?_, ?_, ?_, _, rfl, linear.touched _⟩
  · -- A page that may be written may be read.
    have reads : Translated (.pageTable entries) addr size false (virtualPageNumber addr) entry
        number := { hit with permitted := Bool.and_false _ }
    have back := Blocks.cells_setCells memory (number * pageSize + pageOffset addr) bytes
    rw [length] at back
    rw [readMem_value, translate_touched, translate_of_translated reads sized]
    dsimp only [Except.map]
    rw [back, decodeBytes_encodeBytes encoded]
  · -- Another load reaches an exception, or bytes in another place.
    intro addr' size' sized' apart
    rw [readMem_value, readMem_value, translate_touched]
    rcases linear.translate addr' size' false with ⟨which, failed⟩ | ⟨entry', number', hit'⟩
    · rw [failed]
      rfl
    · rw [translate_of_translated hit' sized']
      dsimp only [Except.map]
      -- The bytes that are loaded are not among those that were stored.
      have away := linear.apart hit hit' sized sized' apart
      rw [Blocks.cells_congr fun offset small => Blocks.setCells_outside _ (by omega)]
  · intro other unnamed
    have differ : other ≠ number := fun equal =>
      unnamed entry (List.mem_of_getElem? located) valid (equal ▸ hit.framed)
    -- The bytes that were stored lie in the frame of the entry.
    rw [Blocks.block_setCells _ (by omega), if_neg differ]

/--
Main memory looks flat through a page table whose valid entries name different frames.

A reference ends in an exception before memory is touched, or stays inside one frame of the table.
What is stored is loaded again, other loads and other frames are unaffected.
-/
theorem linear_flat (linear : Linear entries) (sized : size = 1 ∨ size = 2 ∨ size = 4)
    (memory : Memory) (addr value : BitVec 32) :
    (∀ writing, (∃ which, translate (.pageTable entries) addr size writing =
        .error (.exception which)) ∨
      ∃ physAddr after, translate (.pageTable entries) addr size writing = .ok (physAddr, after) ∧
        Framed entries physAddr size) ∧
    ((∃ which, writeMem (.pageTable entries) memory addr size value = .error (.exception which)) ∨
      ∃ next after, writeMem (.pageTable entries) memory addr size value = .ok (next, after) ∧
        Stored entries memory addr size value next after) := by
  refine ⟨fun writing => linear.framed sized, ?_⟩
  rcases linear.translate addr size true with ⟨which, failed⟩ | ⟨entry, number, hit⟩
  · -- An exception comes before memory is touched.
    exact .inl ⟨which, by rw [writeMem, failed]⟩
  · obtain ⟨bytes, encoded⟩ := encodeBytes_isSome value sized
    have done : ∃ next after,
        writeMem (.pageTable entries) memory addr size value = .ok (next, after) := by
      rw [writeMem, translate_of_translated hit sized]
      dsimp only
      rw [encoded]
      exact ⟨_, _, rfl⟩
    obtain ⟨next, after, done⟩ := done
    exact .inr ⟨next, after, done, linear.stored done⟩

/-- Two pages, of which the first lies behind the second in main memory. -/
def twoPages : List TranslationEntry :=
  [⟨0, 3, true, false, false, false⟩, ⟨1, 1, true, false, false, false⟩]

/-- A half word that is stored in the second page is loaded without its high bits. -/
theorem linear_flat_twoPages : ∃ next after,
    writeMem (.pageTable twoPages) (fun _ => 0) 130 2 0x18081 = .ok (next, after) ∧
      (readMem after next 130 2).map Prod.fst = .ok 0x8081 := by
  have linear : Linear twoPages := by
    refine ⟨by decide, fun page other entry entry' located located' _ _ equal => ?_⟩
    -- The frames 3 and 1 are different.
    match page, other with
    | 0, 0 | 1, 1 => rfl
    | 0, 1 | 1, 0 =>
      cases located
      cases located'
      cases equal
    | page + 2, _ => cases located
    | _, other + 2 => cases located'
  rcases (linear_flat linear (.inr (.inl rfl)) (fun _ => 0) 130 0x18081).2 with
    ⟨which, failed⟩ | ⟨next, after, done, stored⟩
  · cases failed
  · exact ⟨next, after, done, stored.same.trans (by decide)⟩

end Nachos
