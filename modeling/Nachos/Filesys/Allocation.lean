import Mathlib.Data.List.Nodup
import Nachos.Filesys.OpenFileLaws
import Nachos.Machine.TranslateLaws

/-! Which sectors `Allocate` takes out of the free map, and which ones `Deallocate` gives back. -/

namespace Nachos.BitMap

variable {before middle after bitmap : BitMap}

/-- Bits that were clear were marked, and nothing else changed. -/
structure Taken (before after : BitMap) (new : List Nat) : Prop where
  distinct : new.Nodup
  free : ∀ number ∈ new, number < before.numBits ∧ before.testBit number = false
  bits : ∀ number, number < before.numBits → (after.testBit number = true ↔
    before.testBit number = true ∨ number ∈ new)
  numBits : after.numBits = before.numBits
  words : after.map.length = before.map.length

/-- Taking nothing. -/
theorem Taken.nil : Taken bitmap bitmap [] :=
  ⟨List.nodup_nil, by simp, by simp, rfl, rfl⟩

/-- Bits may be taken in two rounds. -/
theorem Taken.append {first second : List Nat} (early : Taken before middle first)
    (late : Taken middle after second) : Taken before after (first ++ second) := by
  -- What was taken first is marked in between, so it is not taken again.
  have later : ∀ number ∈ second, number < before.numBits ∧ before.testBit number = false ∧
      number ∉ first := by
    intro number member
    obtain ⟨inside, free⟩ := late.free number member
    rw [early.numBits] at inside
    rw [← Bool.not_eq_true, early.bits number inside, not_or, Bool.not_eq_true] at free
    exact ⟨inside, free⟩
  refine ⟨?_, ?_, ?_, late.numBits.trans early.numBits, late.words.trans early.words⟩
  · -- A bit of the second round is not one of the first.
    refine List.nodup_append.mpr ⟨early.distinct, late.distinct, ?_⟩
    rintro number earlier other member rfl
    exact (later number member).2.2 earlier
  · -- All of them were clear at the beginning.
    intro number member
    rcases List.mem_append.mp member with member | member
    · exact early.free number member
    · exact ⟨(later number member).1, (later number member).2.1⟩
  · -- A bit is marked at the end when it was before, or in one of the rounds.
    intro number inside
    rw [late.bits number (by rw [early.numBits]; exact inside), early.bits number inside,
      List.mem_append, or_assoc]

/-- Marking one clear bit. -/
theorem Taken.single {number : Nat} (inside : number < bitmap.numBits)
    (free : bitmap.testBit number = false) : Taken bitmap (bitmap.markBit number) [number] := by
  refine ⟨List.nodup_singleton _, ?_, ?_, rfl, by simp [markBit, modifyWord]⟩
  · intro other member
    rw [List.mem_singleton.mp member]
    exact ⟨inside, free⟩
  · intro other small
    rw [testBit_markBit _ _ _ small, List.mem_singleton, Bool.or_eq_true, decide_eq_true_eq,
      eq_comm, or_comm]

/-- `Find` takes one bit. -/
theorem find_taken {number : Nat} (found : bitmap.find = some (number, after)) :
    Taken bitmap after [number] := by
  obtain ⟨inside, free, rfl, -⟩ := find_spec found
  exact Taken.single inside free

/-- Bits were cleared, and nothing else changed. -/
structure Given (before after : BitMap) (gone : Nat → Prop) : Prop where
  bits : ∀ number, number < before.numBits → (after.testBit number = true ↔
    before.testBit number = true ∧ ¬ gone number)
  numBits : after.numBits = before.numBits
  words : after.map.length = before.map.length

/-- Clearing one bit. -/
theorem clear_given {number : Nat} (inside : number < bitmap.numBits) :
    bitmap.clear number = .ok (bitmap.clearBit number) ∧
      Given bitmap (bitmap.clearBit number) fun other => other = number := by
  refine ⟨by simp [clear, inRange, inside], ?_, rfl, by simp [clearBit, modifyWord]⟩
  intro other small
  rw [testBit_clearBit _ _ _ small, Bool.and_eq_true, Bool.not_eq_true', decide_eq_false_iff_not,
    eq_comm, and_comm]

/-- Bits may be cleared in two rounds. -/
theorem Given.trans {gone gone' : Nat → Prop} (first : Given before middle gone)
    (second : Given middle after gone') :
    Given before after fun number => gone number ∨ gone' number := by
  refine ⟨?_, second.numBits.trans first.numBits, second.words.trans first.words⟩
  intro number inside
  rw [second.bits number (by rw [first.numBits]; exact inside), first.bits number inside, not_or,
    and_assoc]

end Nachos.BitMap

namespace Nachos.Filesys

variable {header : FileHeader} {freeMap : BitMap}

/-- A sector number of the disk survives being stored in an `int`. -/
theorem toInt_ofNat_sector {number : Nat} (inside : number < numSectors) :
    (BitVec.ofNat 32 number).toInt = number := by
  rw [numSectors] at inside
  rw [BitVec.toInt_ofNat', Int.bmod_def]
  omega

/-- The loop of `Allocate` takes a clear bit for each entry it fills in. -/
theorem allocateSectors_spec {count : Nat} : ∀ {index : Nat} {header : FileHeader} {freeMap : BitMap},
    index + count ≤ numDirect → count ≤ freeMap.numClear →
    ∃ new header' after, FileHeader.allocateSectors count index header freeMap = .ok (header', after) ∧
      BitMap.Taken freeMap after new ∧ new.length = count ∧ header'.numBytes = header.numBytes ∧
      header'.numSectors = header.numSectors ∧
      header'.dataSectors.take (index + count) =
        header.dataSectors.take index ++ new.map (BitVec.ofNat 32) ∧
      after.numClear + count = freeMap.numClear := by
  induction count with
  | zero =>
    intro index header freeMap _ _
    exact ⟨[], header, freeMap, rfl, .nil, rfl, rfl, rfl, by simp, rfl⟩
  -- One turn finds a bit and stores it, the rest of the loop goes on behind it.
  | succ count ih =>
    intro index header freeMap room free
    obtain ⟨number, middle, found, counted⟩ := BitMap.exists_find (show 0 < freeMap.numClear by omega)
    -- The table has room for this entry, so the store is within its bounds.
    have direct := header.direct
    have stored : header.setDataSector index (BitVec.ofNat 32 number) =
        .ok (header.withSector index (BitVec.ofNat 32 number)) := if_pos (by omega)
    obtain ⟨new, header', after, filled, taken, length, bytes, sectors, table, left⟩ :=
      @ih (index + 1) (header.withSector index (BitVec.ofNat 32 number)) middle (by omega)
        (by omega)
    refine ⟨number :: new, header', after, ?_, (BitMap.find_taken found).append taken,
      by simp [length], bytes, sectors, ?_, by omega⟩
    · rw [FileHeader.allocateSectors, found]
      simp only [stored, Runs.ok_bind]
      exact filled
    · -- The entries so far end with the one that was just filled in.
      have entries : (header.withSector index (BitVec.ofNat 32 number)).dataSectors.take (index + 1) =
          header.dataSectors.take index ++ [BitVec.ofNat 32 number] := by
        rw [FileHeader.withSector, List.take_succ_eq_append_getElem (by rw [List.length_set]; omega),
          List.take_set_of_le (Nat.le_refl _), List.getElem_set_self]
      rw [show index + (count + 1) = index + 1 + count by omega, table, entries]
      simp

/-- `divRoundUp` counts the sectors that so many bytes reach into. -/
theorem divRoundUp_bounds (n : Int) :
    n ≤ divRoundUp n 128 * 128 ∧ divRoundUp n 128 * 128 < n + 128 := by
  rw [divRoundUp]
  rcases Int.lt_or_le n 0 with negative | positive
  · -- Both halves of the division truncate towards zero.
    have quotient := Int.neg_tdiv n 128
    have remainder := Int.neg_tmod n 128
    rw [Int.tdiv_eq_ediv_of_nonneg (by omega)] at quotient
    rw [Int.tmod_eq_emod_of_nonneg (by omega)] at remainder
    split <;> omega
  · rw [Int.tdiv_eq_ediv_of_nonneg positive, Int.tmod_eq_emod_of_nonneg positive]
    split <;> omega

/-- The number of sectors of a file fits into an `int`. -/
theorem toInt_divRoundUp (size : BitVec 32) :
    (BitVec.ofInt 32 (divRoundUp size.toInt sectorSize)).toInt = divRoundUp size.toInt sectorSize := by
  have bounds := divRoundUp_bounds size.toInt
  have low := size.le_toInt
  have high := size.toInt_lt
  have sector : (sectorSize : Int) = 128 := rfl
  rw [sector, BitVec.toInt_ofInt, Int.bmod_def]
  omega

/-- `Allocate` refuses when there are too few clear bits. -/
theorem FileHeader.allocate_refused (header : FileHeader) {fileSize : BitVec 32}
    (few : (freeMap.numClear : Int) < divRoundUp fileSize.toInt sectorSize) :
    ∃ header' after, header.allocate freeMap fileSize = .ok (false, header', after) := by
  rw [FileHeader.allocate]
  dsimp only
  rw [toInt_divRoundUp, if_pos few]
  exact ⟨_, _, rfl⟩

/-- `Allocate` lists the bits it takes as the sectors of the file. -/
theorem FileHeader.allocate_taken (header : FileHeader) {fileSize : BitVec 32}
    (bits : freeMap.numBits = Filesys.numSectors) (small : fileSize.toInt ≤ maxFileSize)
    (enough : divRoundUp fileSize.toInt sectorSize ≤ freeMap.numClear) :
    ∃ new header' after, header.allocate freeMap fileSize = .ok (true, header', after) ∧
      BitMap.Taken freeMap after new ∧ new.length = (divRoundUp fileSize.toInt sectorSize).toNat ∧
      after.numClear + new.length = freeMap.numClear ∧ header'.numBytes = fileSize ∧
      header'.sectors = new.map (fun number : Nat => (number : Int)) ∧ header'.Valid := by
  have bounds := divRoundUp_bounds fileSize.toInt
  -- The largest file just fills the table.
  have limit : divRoundUp fileSize.toInt sectorSize ≤ numDirect := by
    have most : (maxFileSize : Int) = 3840 := rfl
    have direct : (numDirect : Int) = 30 := rfl
    have sector : (sectorSize : Int) = 128 := rfl
    rw [sector, direct]
    omega
  obtain ⟨new, header', after, filled, taken, length, bytes, count, table, left⟩ :=
    @allocateSectors_spec (divRoundUp fileSize.toInt sectorSize).toNat 0
      { header with
        numBytes := fileSize
        numSectors := BitVec.ofInt 32 (divRoundUp fileSize.toInt sectorSize) } freeMap
      (by omega) (by omega)
  have counted : header'.numSectors.toInt = divRoundUp fileSize.toInt sectorSize := by
    rw [count]
    exact toInt_divRoundUp fileSize
  -- The header lists the taken bits, in the order in which they were found.
  have listed : header'.sectors = new.map (fun number : Nat => (number : Int)) := by
    rw [Nat.zero_add, List.take_zero, List.nil_append] at table
    rw [FileHeader.sectors, counted, table, List.map_map]
    apply List.map_congr_left
    intro number member
    exact toInt_ofNat_sector (bits ▸ (taken.free number member).1)
  refine ⟨new, header', after, ?_, taken, length, by omega, bytes, listed, ?_⟩
  · rw [FileHeader.allocate]
    dsimp only
    rw [toInt_divRoundUp, if_neg (by omega), filled]
    rfl
  · -- Such a header covers its bytes, with sectors of the disk.
    refine ⟨by omega, ?_, ?_⟩
    · rw [FileHeader.fileLength, bytes, counted]
      exact bounds.1
    · intro sector member
      rw [listed] at member
      obtain ⟨number, taken', rfl⟩ := List.mem_map.mp member
      have inside := (taken.free number taken').1
      omega

/-- The loop of `Deallocate` clears the bits of the entries it visits. -/
theorem deallocateSectors_spec (valid : header.Valid) (distinct : header.sectors.Nodup) {count : Nat} :
    ∀ {index : Nat} {freeMap : BitMap}, freeMap.numBits = numSectors →
      (index + count : Int) ≤ max 0 header.numSectors.toInt →
      (∀ entry, index ≤ entry → entry < index + count →
        freeMap.testBit (header.place entry) = true) →
      ∃ after, header.deallocateSectors count index freeMap = .ok after ∧
        BitMap.Given freeMap after fun number =>
          ∃ entry, index ≤ entry ∧ entry < index + count ∧ header.place entry = number := by
  induction count with
  | zero =>
    intro index freeMap _ _ _
    refine ⟨freeMap, rfl, ?_, rfl, rfl⟩
    intro number _
    rw [iff_self_and]
    rintro - ⟨entry, low, high, -⟩
    omega
  -- One turn tests and clears a bit, the rest of the loop visits the later entries.
  | succ count ih =>
    intro index freeMap bits used marked
    have here : (index : Int) < header.numSectors.toInt := by omega
    obtain ⟨named, -, inside⟩ := valid.located here
    have set := marked index (Nat.le_refl _) (by omega)
    obtain ⟨cleared, first⟩ := @BitMap.clear_given freeMap (header.place index)
      (by rw [bits]; exact inside)
    -- The bits of the later entries are others, so they are still marked.
    obtain ⟨after, released, rest⟩ := @ih (index + 1) (freeMap.clearBit (header.place index)) bits
      (by omega) (by
        intro entry low high
        obtain ⟨-, -, inside'⟩ := valid.located (show (entry : Int) < header.numSectors.toInt by omega)
        refine (first.bits _ (by rw [bits]; exact inside')).mpr ⟨marked entry (by omega) (by omega), ?_⟩
        intro same
        have equal := valid.place_inj distinct (by omega) here same
        omega)
    refine ⟨after, ?_, ?_⟩
    · -- The `ASSERT` of this turn holds, because the bit is still marked.
      have tested : freeMap.test (header.place index) = .ok true := by
        simp [BitMap.test, BitMap.inRange, bits, inside, set]
      rw [FileHeader.deallocateSectors, named, Runs.ok_bind, tested, Runs.ok_bind, if_pos rfl, cleared,
        Runs.ok_bind]
      exact released
    · -- The entries from here on are this one and the later ones.
      have both := first.trans rest
      refine ⟨?_, both.numBits, both.words⟩
      intro number small
      rw [both.bits number small]
      refine and_congr_right fun _ => not_congr ⟨?_, ?_⟩
      · rintro (rfl | ⟨entry, low, high, same⟩)
        · exact ⟨index, Nat.le_refl _, by omega, rfl⟩
        · exact ⟨entry, by omega, by omega, same⟩
      · rintro ⟨entry, low, high, same⟩
        rcases Nat.eq_or_lt_of_le low with rfl | later
        · exact .inl same.symm
        · exact .inr ⟨entry, later, by omega, same⟩

/-- The sectors that a header lists are the places of its entries. -/
theorem FileHeader.Valid.mem_sectors (valid : header.Valid) {number : Nat} :
    (number : Int) ∈ header.sectors ↔
      ∃ entry : Nat, (entry : Int) < header.numSectors.toInt ∧ header.place entry = number := by
  constructor
  · intro member
    obtain ⟨entry, found⟩ := List.getElem?_of_mem member
    have bound := (List.getElem?_eq_some_iff.mp found).1
    rw [FileHeader.sectors, List.length_map, List.length_take] at bound
    -- The list is no longer than the number of sectors that the header states.
    have used : (entry : Int) < header.numSectors.toInt := by omega
    obtain ⟨-, listed, -⟩ := valid.located used
    rw [found, Option.some.injEq] at listed
    exact ⟨entry, used, by omega⟩
  · rintro ⟨entry, used, rfl⟩
    exact List.mem_of_getElem? (valid.located used).2.1

/-- `Deallocate` finds every sector of the file marked, and clears exactly those. -/
theorem FileHeader.deallocate_given (valid : header.Valid) (distinct : header.sectors.Nodup)
    (bits : freeMap.numBits = Filesys.numSectors)
    (marked : ∀ number : Nat, (number : Int) ∈ header.sectors → freeMap.testBit number = true) :
    ∃ after, header.deallocate freeMap = .ok after ∧
      BitMap.Given freeMap after fun number => (number : Int) ∈ header.sectors := by
  obtain ⟨after, released, given⟩ := @deallocateSectors_spec header valid distinct
    header.numSectors.toInt.toNat 0 freeMap bits (by omega) (by
      intro entry _ high
      exact marked _ (valid.mem_sectors.mpr ⟨entry, by omega, rfl⟩))
  refine ⟨after, released, ?_, given.numBits, given.words⟩
  intro number small
  rw [given.bits number small]
  refine and_congr_right fun _ => not_congr ?_
  rw [valid.mem_sectors]
  constructor
  · rintro ⟨entry, -, high, same⟩
    exact ⟨entry, by omega, same⟩
  · rintro ⟨entry, used, same⟩
    exact ⟨entry, Nat.zero_le _, by omega, same⟩

end Nachos.Filesys
