import Nachos.Machine.Translate

/-! What a translation that succeeds has found, and what one that faults has missed. -/

namespace Nachos

/-- Changing entries keeps the kind of table. -/
@[simp] theorem entries_withEntries (table : TranslationTable) (entries : List TranslationEntry) :
    (table.withEntries entries).entries = entries := by
  cases table <;> rfl

section Touch

variable (writing : Bool) (entry : TranslationEntry)

/-- A reference does not rename the page. -/
@[simp] theorem touch_virtualPage : (entry.touch writing).virtualPage = entry.virtualPage := rfl

/-- A reference does not move the page. -/
@[simp] theorem touch_physicalPage : (entry.touch writing).physicalPage = entry.physicalPage := rfl

/-- A reference does not change the valid bit. -/
@[simp] theorem touch_valid : (entry.touch writing).valid = entry.valid := rfl

/-- A reference does not change the protection bit. -/
@[simp] theorem touch_readOnly : (entry.touch writing).readOnly = entry.readOnly := rfl

/-- A reference sets the dirty bit exactly when it writes. -/
@[simp] theorem touch_dirty : (entry.touch writing).dirty = (entry.dirty || writing) := rfl

end Touch

/-- A virtual address is its page and the offset inside it. -/
theorem toNat_eq_page_offset (addr : BitVec 32) :
    addr.toNat = virtualPageNumber addr * pageSize + pageOffset addr :=
  (Nat.div_add_mod' addr.toNat pageSize).symm

/-- A page counted by `divRoundUp` starts before the end of what is counted. -/
theorem lt_divRoundUp {page : Nat} {n : Int} (below : (page : Int) < divRoundUp n 128) :
    (page * 128 : Int) < n := by
  unfold divRoundUp at below
  rcases Int.lt_or_le n 0 with negative | positive
  · -- Both halves of the division truncate towards zero, so nothing is counted.
    have quotient := Int.neg_tdiv n 128
    have remainder := Int.neg_tmod n 128
    rw [Int.tdiv_eq_ediv_of_nonneg (by omega)] at quotient
    rw [Int.tmod_eq_emod_of_nonneg (by omega)] at remainder
    split at below <;> omega
  · rw [Int.tdiv_eq_ediv_of_nonneg positive, Int.tmod_eq_emod_of_nonneg positive] at below
    split at below <;> omega

/-- A frame number read from an entry is the frame the entry names. -/
theorem frameNumber_ok {physicalPage : Int} {number : Nat}
    (named : frameNumber physicalPage = .ok number) :
    physicalPage = number ∧ number < numPhysPages := by
  unfold frameNumber at named
  split at named
  · rename_i inside
    simp only [Except.ok.injEq] at named
    omega
  · simp at named

/-- A translation succeeded: the entry it used, and the frame it found there. -/
structure Translated (table : TranslationTable) (virtAddr : BitVec 32) (size : Nat)
    (writing : Bool) (position : Nat) (entry : TranslationEntry) (number : Nat) : Prop where
  aligned : misaligned virtAddr size = false
  found : findEntry table (virtualPageNumber virtAddr) = .ok position
  located : table.entries[position]? = some entry
  permitted : (entry.readOnly && writing) = false
  framed : entry.physicalPage = number
  inside : number < numPhysPages

/-- A translation that succeeds has found an entry with a frame. -/
theorem translate_ok {table after : TranslationTable} {virtAddr : BitVec 32} {size physAddr : Nat}
    {writing : Bool} (done : translate table virtAddr size writing = .ok (physAddr, after)) :
    ∃ position entry number, Translated table virtAddr size writing position entry number ∧
      physAddr = number * pageSize + pageOffset virtAddr ∧
      after = table.withEntries (table.entries.modify position (·.touch writing)) := by
  unfold translate at done
  split at done
  · simp at done
  · rename_i aligned
    cases found : findEntry table (virtualPageNumber virtAddr) with
    | error trap => simp [found] at done
    | ok position =>
      simp only [found, useEntry] at done
      cases located : table.entries[position]? with
      | none => simp [located] at done
      | some entry =>
        simp only [located] at done
        -- The tests run in the order of the source: protection, frame, end of memory.
        split at done
        · simp at done
        · rename_i permitted
          split at done
          · simp at done
          · rename_i frame
            split at done
            · simp only [Except.ok.injEq, Prod.mk.injEq] at done
              obtain ⟨rfl, rfl⟩ := done
              simp only [Bool.or_eq_true, decide_eq_true_eq, not_or, Int.not_lt, Int.not_le] at frame
              refine ⟨position, entry, entry.physicalPage.toNat,
                ⟨by simpa using aligned, found, located, by simpa using permitted, ?_, ?_⟩, rfl, rfl⟩
              · exact (Int.toNat_of_nonneg frame.1).symm
              · omega
            · simp at done

/-- An aligned reference stays inside its page. -/
theorem pageOffset_add_le {virtAddr : BitVec 32} {size : Nat}
    (aligned : misaligned virtAddr size = false) (sized : size = 1 ∨ size = 2 ∨ size = 4) :
    pageOffset virtAddr + size ≤ pageSize := by
  -- The page size is a multiple of every size, so the offset is a multiple of the size too.
  have low : ∀ mask bits : Nat, mask + 1 = 2 ^ bits → bits < 32 →
      virtAddr &&& BitVec.ofNat 32 mask = 0#32 → virtAddr.toNat % 2 ^ bits = 0 := by
    intro mask bits power small zero
    have value := congrArg BitVec.toNat zero
    rw [BitVec.toNat_and, BitVec.toNat_ofNat, Nat.mod_eq_of_lt] at value
    · rw [show mask = 2 ^ bits - 1 by omega, Nat.and_two_pow_sub_one_eq_mod] at value
      simpa using value
    · have : 2 ^ bits < 2 ^ 32 := Nat.pow_lt_pow_right (by omega) small
      omega
  unfold misaligned at aligned
  unfold pageOffset pageSize
  rcases sized with rfl | rfl | rfl
  · omega
  · have zero := low 1 1 (by decide) (by decide) (by simpa using aligned)
    omega
  · have zero := low 3 2 (by decide) (by decide) (by simpa using aligned)
    omega

/-- A translation succeeds once it has found an entry it may use. -/
theorem translate_of_translated {table : TranslationTable} {virtAddr : BitVec 32} {size : Nat}
    {writing : Bool} {position : Nat} {entry : TranslationEntry} {number : Nat}
    (hit : Translated table virtAddr size writing position entry number)
    (sized : size = 1 ∨ size = 2 ∨ size = 4) :
    translate table virtAddr size writing = .ok (number * pageSize + pageOffset virtAddr,
      table.withEntries (table.entries.modify position (·.touch writing))) := by
  have fits := pageOffset_add_le hit.aligned sized
  have inside := hit.inside
  have within : number * pageSize + pageOffset virtAddr + size ≤ memorySize := by
    have last : number * pageSize + pageSize ≤ numPhysPages * pageSize := by
      rw [← Nat.succ_mul]
      exact Nat.mul_le_mul_right _ inside
    simp only [memorySize]
    omega
  have frame : (decide (entry.physicalPage < 0) ||
      decide ((numPhysPages : Int) ≤ entry.physicalPage)) = false := by
    rw [hit.framed]
    simp only [Bool.or_eq_false_iff, decide_eq_false_iff_not]
    omega
  have named : entry.physicalPage.toNat = number := by rw [hit.framed]; rfl
  simp only [translate, hit.aligned, hit.found, useEntry, hit.located, hit.permitted, frame, named,
    Bool.false_eq_true, if_false, if_pos within]

/-- A page found in the TLB is held by a valid slot. -/
theorem findEntry_tlb_ok {tlb : List TranslationEntry} {vpn position : Nat}
    (found : findEntry (.tlb tlb) vpn = .ok position) :
    ∃ cached, tlb[position]? = some cached ∧ cached.valid = true ∧ cached.virtualPage = vpn := by
  simp only [findEntry] at found
  cases located : tlb.findIdx? (TranslationEntry.matchesPage vpn) with
  | none => simp [located] at found
  | some place =>
    simp only [located, Except.ok.injEq] at found
    subst found
    obtain ⟨inside, matched, -⟩ := List.findIdx?_eq_some_iff_getElem.mp located
    refine ⟨tlb[place], List.getElem?_eq_getElem inside, ?_⟩
    simpa [TranslationEntry.matchesPage] using matched

/-- A page no valid slot holds is missed. -/
theorem findEntry_tlb_error {tlb : List TranslationEntry} {vpn : Nat} {trap : Trap} :
    findEntry (.tlb tlb) vpn = .error trap ↔ trap = .exception .pageFault ∧
      ∀ cached ∈ tlb, cached.valid = true → cached.virtualPage ≠ vpn := by
  have missed : tlb.findIdx? (TranslationEntry.matchesPage vpn) = none ↔
      ∀ cached ∈ tlb, cached.valid = true → cached.virtualPage ≠ vpn := by
    simp [List.findIdx?_eq_none_iff, TranslationEntry.matchesPage]
  rw [← missed]
  simp only [findEntry]
  cases tlb.findIdx? (TranslationEntry.matchesPage vpn) with
  | none => simp [eq_comm]
  | some position => simp

/-- The hardware asks the kernel for a page exactly when it is missing from the TLB. -/
theorem translate_tlb_pageFault {tlb : List TranslationEntry} {virtAddr : BitVec 32} {size : Nat}
    {writing : Bool} :
    translate (.tlb tlb) virtAddr size writing = .error (.exception .pageFault) ↔
      misaligned virtAddr size = false ∧
        ∀ cached ∈ tlb, cached.valid = true → cached.virtualPage ≠ virtualPageNumber virtAddr := by
  unfold translate
  cases aligned : misaligned virtAddr size with
  | true => simp
  | false =>
    simp only [Bool.false_eq_true, if_false, true_and]
    cases found : findEntry (.tlb tlb) (virtualPageNumber virtAddr) with
    | error trap =>
      obtain ⟨rfl, missed⟩ := findEntry_tlb_error.mp found
      simpa using missed
    | ok position =>
      obtain ⟨cached, located, valid, named⟩ := findEntry_tlb_ok found
      have hit : ¬ ∀ cached ∈ tlb, cached.valid = true →
          cached.virtualPage ≠ virtualPageNumber virtAddr :=
        fun missed => missed cached (List.mem_of_getElem? located) valid named
      simp only [hit, iff_false, useEntry, TranslationTable.entries, located]
      split <;> [simp; split <;> [simp; split <;> simp]]

/-- A page table finds an entry exactly at the page's own place. -/
theorem findEntry_pageTable_ok {entries : List TranslationEntry} {vpn position : Nat}
    (found : findEntry (.pageTable entries) vpn = .ok position) :
    position = vpn ∧ ∃ entry, entries[vpn]? = some entry ∧ entry.valid = true := by
  simp only [findEntry] at found
  cases located : entries[vpn]? with
  | none => simp [located] at found
  | some entry =>
    simp only [located] at found
    split at found
    · rename_i valid
      simp only [Except.ok.injEq] at found
      exact ⟨found.symm, entry, rfl, valid⟩
    · simp at found

section Access

variable {table after : TranslationTable} {memory next : Memory} {addr value : BitVec 32}
  {size : Nat}

/-- A read that succeeds decodes the bytes at the translated address. -/
theorem readMem_ok (done : readMem table memory addr size = .ok (value, after)) :
    ∃ physAddr, translate table addr size false = .ok (physAddr, after) ∧
      decodeBytes (Blocks.cells memory physAddr size) = some value := by
  unfold readMem at done
  cases translated : translate table addr size false with
  | error trap => simp [translated] at done
  | ok result =>
    obtain ⟨physAddr, other⟩ := result
    simp only [translated] at done
    cases decoded : decodeBytes (Blocks.cells memory physAddr size) with
    | none => simp [decoded] at done
    | some word =>
      simp only [decoded, Except.ok.injEq, Prod.mk.injEq] at done
      obtain ⟨rfl, rfl⟩ := done
      exact ⟨physAddr, rfl, decoded⟩

/-- A write that succeeds stores the encoded bytes at the translated address. -/
theorem writeMem_ok (done : writeMem table memory addr size value = .ok (next, after)) :
    ∃ physAddr bytes, translate table addr size true = .ok (physAddr, after) ∧
      encodeBytes size value = some bytes ∧ next = Blocks.setCells memory physAddr bytes := by
  unfold writeMem at done
  cases translated : translate table addr size true with
  | error trap => simp [translated] at done
  | ok result =>
    obtain ⟨physAddr, other⟩ := result
    simp only [translated] at done
    cases encoded : encodeBytes size value with
    | none => simp [encoded] at done
    | some bytes =>
      simp only [encoded, Except.ok.injEq, Prod.mk.injEq] at done
      obtain ⟨rfl, rfl⟩ := done
      exact ⟨physAddr, bytes, rfl, rfl, rfl⟩

/-- A read faults exactly when its translation does. -/
theorem readMem_pageFault :
    readMem table memory addr size = .error (.exception .pageFault) ↔
      translate table addr size false = .error (.exception .pageFault) := by
  unfold readMem
  cases translated : translate table addr size false with
  | error trap => simp
  | ok result =>
    dsimp only
    split <;> simp

/-- A write faults exactly when its translation does. -/
theorem writeMem_pageFault :
    writeMem table memory addr size value = .error (.exception .pageFault) ↔
      translate table addr size true = .error (.exception .pageFault) := by
  unfold writeMem
  cases translated : translate table addr size true with
  | error trap => simp
  | ok result =>
    dsimp only
    split <;> simp

end Access

/-- Values are written only in the sizes of the machine, one byte a cell. -/
theorem encodeBytes_some {size : Nat} {value : BitVec 32} {bytes : List Byte}
    (encoded : encodeBytes size value = some bytes) :
    bytes.length = size ∧ (size = 1 ∨ size = 2 ∨ size = 4) := by
  unfold encodeBytes at encoded
  split at encoded <;> simp only [Option.some.injEq, reduceCtorEq] at encoded <;>
    subst encoded <;> simp

/-- Values are written in all sizes of the machine. -/
theorem encodeBytes_isSome {size : Nat} (value : BitVec 32)
    (sized : size = 1 ∨ size = 2 ∨ size = 4) : ∃ bytes, encodeBytes size value = some bytes := by
  rcases sized with rfl | rfl | rfl <;> exact ⟨_, rfl⟩

/-- Values are read only in the sizes of the machine. -/
theorem decodeBytes_some {bytes : List Byte} {value : BitVec 32}
    (decoded : decodeBytes bytes = some value) :
    bytes.length = 1 ∨ bytes.length = 2 ∨ bytes.length = 4 := by
  unfold decodeBytes at decoded
  split at decoded <;> simp at decoded ⊢

/-- Values are read in all sizes of the machine. -/
theorem decodeBytes_isSome {bytes : List Byte}
    (sized : bytes.length = 1 ∨ bytes.length = 2 ∨ bytes.length = 4) :
    ∃ value, decodeBytes bytes = some value := by
  match bytes with
  | [b0] => exact ⟨_, rfl⟩
  | [b0, b1] => exact ⟨_, rfl⟩
  | [b0, b1, b2, b3] => exact ⟨_, rfl⟩
  | [] | [_, _, _] | _ :: _ :: _ :: _ :: _ :: _ => simp at sized

end Nachos
