import Nachos.Filesys.OpenFile

/-! A file is the memory that its header describes: what `ReadAt` and `WriteAt` do to it. -/

namespace Nachos.Filesys

/-- The contents of a sector. -/
def sectorOf (disk : Disk) (number : Nat) : Fin sectorSize → Byte :=
  Blocks.block sectorSize disk number

/-- The sector that an entry of the table names. -/
def FileHeader.place (header : FileHeader) (index : Nat) : Nat :=
  (header.dataSectors[index]?.getD 0).toInt.toNat

/-- The data sectors that a header lists. -/
def FileHeader.sectors (header : FileHeader) : List Int :=
  (header.dataSectors.take header.numSectors.toInt.toNat).map BitVec.toInt

/-- The bytes of a file, in the order of the file. -/
def contents (disk : Disk) (header : FileHeader) : Buffer := fun position =>
  disk (header.place (position / sectorSize) * sectorSize + position % sectorSize)

/-- A header whose table lists a sector of the disk for every byte of the file. -/
structure FileHeader.Valid (header : FileHeader) : Prop where
  short : header.numSectors.toInt ≤ numDirect
  covers : header.fileLength ≤ header.numSectors.toInt * sectorSize
  inside : ∀ sector ∈ header.sectors, 0 ≤ sector ∧ sector < Filesys.numSectors

variable {disk after : Disk} {header : FileHeader} {file : OpenFile}

/-- Every entry that a valid header uses names a sector of the disk. -/
theorem FileHeader.Valid.located (valid : header.Valid) {index : Nat}
    (used : (index : Int) < header.numSectors.toInt) :
    header.dataSector index = .ok (header.place index) ∧
      header.sectors[index]? = some (header.place index : Int) ∧
      header.place index < Filesys.numSectors := by
  have short := valid.short
  have direct := header.direct
  have bound : index < header.dataSectors.length := by omega
  have entry := List.getElem?_eq_getElem bound
  -- The entry is among those that the header states to be in use.
  have listed : header.sectors[index]? = some header.dataSectors[index].toInt := by
    rw [FileHeader.sectors, List.getElem?_map, List.getElem?_take_of_lt (by omega), entry]
    rfl
  obtain ⟨natural, small⟩ := valid.inside _ (List.mem_of_getElem? listed)
  have same : ((header.dataSectors[index].toInt.toNat : Nat) : Int) =
      header.dataSectors[index].toInt := Int.toNat_of_nonneg natural
  refine ⟨?_, ?_, ?_⟩
  · simp [FileHeader.dataSector, FileHeader.place, entry, same]
  · rw [listed, FileHeader.place, entry, Option.getD_some, same]
  · rw [FileHeader.place, entry, Option.getD_some]
    omega

/-- A sector of the disk passes the `ASSERT` of the disk. -/
theorem sectorNumber_eq {number : Nat} (inside : number < numSectors) :
    sectorNumber number = .ok number := by
  rw [sectorNumber, if_pos (by omega), Int.toNat_natCast]

/-- Reading a sector of the disk. -/
theorem readSector_eq {number : Nat} (inside : number < numSectors) :
    readSector disk number = .ok (Blocks.cells disk (number * sectorSize) sectorSize) := by
  rw [readSector, sectorNumber_eq inside]
  rfl

/-- Writing a sector of the disk. -/
theorem writeSector_eq {number : Nat} (inside : number < numSectors) (bytes : List Byte) :
    writeSector disk number bytes = .ok (Blocks.setCells disk (number * sectorSize) bytes) := by
  rw [writeSector, sectorNumber_eq inside]
  rfl

/-- The sector behind the first byte of a sector of a file. -/
theorem FileHeader.Valid.byteToSector_eq (valid : header.Valid) {index : Nat}
    (used : (index : Int) < header.numSectors.toInt) :
    header.byteToSector (index * sectorSize) = .ok (header.place index) := by
  rw [FileHeader.byteToSector, Int.mul_tdiv_cancel _ (by decide)]
  exact (valid.located used).1

/-- The bytes of one sector of a file. -/
theorem cells_contents (disk : Disk) (header : FileHeader) (index : Nat) :
    Blocks.cells (contents disk header) (index * sectorSize) sectorSize =
      Blocks.cells disk (header.place index * sectorSize) sectorSize := by
  -- All bytes of the sector have the same quotient, and their offset as the remainder.
  apply Blocks.cells_congr
  intro offset inside
  have quotient : (index * sectorSize + offset) / sectorSize = index := by
    rw [sectorSize] at inside ⊢
    omega
  have remainder : (index * sectorSize + offset) % sectorSize = offset := by
    rw [sectorSize] at inside ⊢
    omega
  rw [contents, quotient, remainder]

/-- The loop of `ReadAt` reads adjacent sectors of the file. -/
theorem OpenFile.readSectors_eq (valid : file.hdr.Valid) {count : Nat} :
    ∀ {index : Nat}, (index + count : Int) ≤ file.hdr.numSectors.toInt →
      file.readSectors disk count index =
        .ok (Blocks.cells (contents disk file.hdr) (index * sectorSize) (count * sectorSize)) := by
  -- Each turn reads one sector, and the later turns read behind it.
  induction count with
  | zero => simp [OpenFile.readSectors, Blocks.cells]
  | succ count ih =>
    intro index used
    have here : (index : Int) < file.hdr.numSectors.toInt := by omega
    have rest := @ih (index + 1) (by omega)
    rw [Int.natCast_add, Int.natCast_one] at rest
    rw [OpenFile.readSectors, valid.byteToSector_eq here]
    simp only [Runs.ok_bind, readSector_eq (valid.located here).2.2, rest]
    -- The bytes of the first sector come before those of the others.
    have sizes : (count + 1) * sectorSize = sectorSize + count * sectorSize := by
      rw [Nat.succ_mul, Nat.add_comm]
    rw [sizes, Blocks.cells_add, cells_contents, ← Nat.succ_mul]
    rfl

/-- The number of bytes that a request moves. -/
def OpenFile.transferred (file : OpenFile) (numBytes position : Int) : Nat :=
  if numBytes ≤ 0 ∨ position ≥ file.hdr.fileLength then 0
  else (file.granted numBytes position).toNat

/-- A request that moves bytes moves some, and all of them inside the file. -/
theorem OpenFile.granted_eq {numBytes : Int} {position : Nat}
    (moves : ¬ (numBytes ≤ 0 ∨ (position : Int) ≥ file.hdr.fileLength)) :
    file.granted numBytes position = file.transferred numBytes position ∧
      0 < file.transferred numBytes position ∧
      (position + file.transferred numBytes position : Int) ≤ file.hdr.fileLength := by
  rw [OpenFile.transferred, if_neg moves, OpenFile.granted]
  split <;> omega

/-- The sectors of a request that moves bytes. -/
theorem OpenFile.span (valid : file.hdr.Valid) {position count : Nat} (some : 0 < count)
    (inside : (position + count : Int) ≤ file.hdr.fileLength) :
    (position : Int).tdiv sectorSize = (position / sectorSize : Nat) ∧
      (position + count - 1 : Int).tdiv sectorSize = ((position + count - 1) / sectorSize : Nat) ∧
      position / sectorSize ≤ (position + count - 1) / sectorSize ∧
      ((position + count - 1) / sectorSize : Nat) < file.hdr.numSectors.toInt := by
  have covers := valid.covers
  -- The division of `int`s truncates, which makes no difference above zero.
  have last : (position + count - 1 : Int) = ((position + count - 1 : Nat) : Int) := by omega
  refine ⟨rfl, ?_, Nat.div_le_div_right (by omega), ?_⟩
  · rw [last]
    rfl
  · rw [sectorSize] at covers ⊢
    omega

/-- `ReadAt` answers with the bytes of the file. -/
theorem OpenFile.readAt_eq (valid : file.hdr.Valid) (disk : Disk) (numBytes : Int)
    (position : Nat) :
    file.readAt disk numBytes position = .ok (Blocks.cells (contents disk file.hdr) position
      (file.transferred numBytes position)) := by
  by_cases nothing : numBytes ≤ 0 ∨ (position : Int) ≥ file.hdr.fileLength
  · -- A request for nothing, or from behind the end, reads nothing.
    rw [OpenFile.readAt, if_pos nothing, OpenFile.transferred, if_pos nothing]
    rfl
  · obtain ⟨granted, some, inside⟩ := OpenFile.granted_eq nothing
    obtain ⟨first, last, order, used⟩ := OpenFile.span valid some inside
    generalize file.transferred numBytes position = count at *
    rw [OpenFile.readAt, if_neg nothing]
    simp only [granted, first, last]
    -- The sectors of the request cover it from the first byte on.
    have turns : (1 + (((position + count - 1) / sectorSize : Nat) : Int) -
        ((position / sectorSize : Nat) : Int)).toNat =
        1 + (position + count - 1) / sectorSize - position / sectorSize := by omega
    -- The first byte lies in the buffer of whole sectors, at its offset in the first of them.
    have offset : OpenFile.bufferIndex
        (position - ((position / sectorSize : Nat) : Int) * sectorSize) =
        .ok (position % sectorSize) := by
      have split := Nat.div_add_mod' position sectorSize
      have place : (position : Int) - ((position / sectorSize : Nat) : Int) * sectorSize =
          ((position % sectorSize : Nat) : Int) := by
        rw [← Int.natCast_mul]
        omega
      rw [place, OpenFile.bufferIndex, if_pos (by omega), Int.toNat_natCast]
    rw [turns, OpenFile.readSectors_eq valid (by omega), Runs.ok_bind, offset, Runs.ok_bind,
      Int.toNat_natCast, Blocks.take_drop_cells _ _ (by rw [sectorSize] at *; omega),
      Nat.div_add_mod']
    rfl

/-- Different entries of a header without repetition name different sectors. -/
theorem FileHeader.Valid.place_inj (valid : header.Valid) (distinct : header.sectors.Nodup)
    {index other : Nat} (used : (index : Int) < header.numSectors.toInt)
    (used' : (other : Int) < header.numSectors.toInt)
    (same : header.place index = header.place other) : index = other := by
  obtain ⟨-, found, -⟩ := valid.located used
  obtain ⟨-, found', -⟩ := valid.located used'
  have bound : index < header.sectors.length := (List.getElem?_eq_some_iff.mp found).1
  exact (List.getElem?_inj bound distinct).mp (by rw [found, found', same])

/-- Writing one sector of a file changes that part of the file only. -/
theorem contents_setCells (valid : header.Valid) (distinct : header.sectors.Nodup)
    (disk source : Buffer) (start : Nat) {index position : Nat}
    (used : (index : Int) < header.numSectors.toInt)
    (used' : (position / sectorSize : Nat) < header.numSectors.toInt) :
    contents (Blocks.setCells disk (header.place index * sectorSize)
        (Blocks.cells source start sectorSize)) header position =
      if position / sectorSize = index then source (start + position % sectorSize)
      else contents disk header position := by
  have small : position % sectorSize < sectorSize := Nat.mod_lt _ (by decide)
  rw [contents, Blocks.setCells_cells]
  by_cases same : position / sectorSize = index
  · -- The byte lies in the sector that was written.
    rw [same, if_pos (by omega), if_pos rfl, Nat.add_sub_cancel_left]
  · -- Another part of the file lies in another sector.
    have elsewhere : header.place (position / sectorSize) ≠ header.place index :=
      fun equal => same (valid.place_inj distinct used' used equal)
    have outside : ¬ (header.place index * sectorSize ≤
        header.place (position / sectorSize) * sectorSize + position % sectorSize ∧
        header.place (position / sectorSize) * sectorSize + position % sectorSize <
          header.place index * sectorSize + sectorSize) := by
      generalize header.place (position / sectorSize) = here at elsewhere ⊢
      simp only [sectorSize] at small ⊢
      omega
    rw [if_neg outside, if_neg same, contents]

/-- Writing a sector leaves the other sectors alone. -/
theorem sectorOf_setCells (disk : Disk) {number other : Nat} {bytes : List Byte}
    (whole : bytes.length = sectorSize) (differ : other ≠ number) :
    sectorOf (Blocks.setCells disk (number * sectorSize) bytes) other = sectorOf disk other := by
  have patched := @Blocks.block_setCells _ sectorSize disk number 0 bytes (by omega) other
  rwa [Nat.add_zero, if_neg differ] at patched

/-- The loop of `WriteAt` replaces adjacent sectors of the file. -/
theorem OpenFile.writeSectors_spec (valid : file.hdr.Valid) (distinct : file.hdr.sectors.Nodup)
    {buf : Buffer} {count : Nat} : ∀ {index place : Nat} {disk : Disk},
      (index + count : Int) ≤ file.hdr.numSectors.toInt →
      ∃ after, file.writeSectors buf count index place disk = .ok after ∧
        (∀ position : Nat, (position / sectorSize : Nat) < file.hdr.numSectors.toInt →
          contents after file.hdr position =
            if index * sectorSize ≤ position ∧ position < (index + count) * sectorSize then
              buf (place * sectorSize + (position - index * sectorSize))
            else contents disk file.hdr position) ∧
        ∀ number : Nat, (number : Int) ∉ file.hdr.sectors →
          sectorOf after number = sectorOf disk number := by
  induction count with
  | zero =>
    intro index place disk _
    refine ⟨disk, rfl, ?_, fun _ _ => rfl⟩
    intro position _
    rw [Nat.add_zero, if_neg (by omega)]
  | succ count ih =>
    intro index place disk used
    have here : (index : Int) < file.hdr.numSectors.toInt := by omega
    obtain ⟨-, listed, inside⟩ := valid.located here
    -- The later turns start from the disk that this one leaves.
    obtain ⟨after, written, changed, unchanged⟩ := @ih (index + 1) (place + 1)
      (Blocks.setCells disk (file.hdr.place index * sectorSize)
        (Blocks.cells buf (place * sectorSize) sectorSize)) (by omega)
    rw [Int.natCast_add, Int.natCast_one] at written
    refine ⟨after, ?_, ?_, ?_⟩
    · -- The sector of this turn passes the `ASSERT` of the disk.
      rw [OpenFile.writeSectors, valid.byteToSector_eq here, Runs.ok_bind, writeSector_eq inside,
        Runs.ok_bind]
      exact written
    · -- A byte is written by this turn, by a later one, or not at all.
      intro position used'
      rw [changed position used', contents_setCells valid distinct disk buf _ here used']
      by_cases later : (index + 1) * sectorSize ≤ position ∧
          position < (index + 1 + count) * sectorSize
      · -- The later turns count from one sector further on, in the file and in the buffer.
        have inside : index * sectorSize ≤ position ∧
            position < (index + (count + 1)) * sectorSize := by
          simp only [sectorSize] at later ⊢
          omega
        have same : (place + 1) * sectorSize + (position - (index + 1) * sectorSize) =
            place * sectorSize + (position - index * sectorSize) := by
          simp only [sectorSize] at later ⊢
          omega
        rw [if_pos later, if_pos inside, same]
      · rw [if_neg later]
        -- A byte of this turn has the quotient `index`.
        have range : position / sectorSize = index ↔
            index * sectorSize ≤ position ∧ position < (index + (count + 1)) * sectorSize := by
          simp only [sectorSize] at later ⊢
          omega
        have same : position / sectorSize = index →
            position % sectorSize = position - index * sectorSize := by
          simp only [sectorSize]
          omega
        simp only [range] at same ⊢
        split
        · rename_i now
          rw [same now]
        · rfl
    · -- The sector of this turn is one of the file, as those of the later turns are.
      intro number outside
      rw [unchanged number outside]
      apply sectorOf_setCells _ (Blocks.cells_length _ _ _)
      rintro rfl
      exact outside (List.mem_of_getElem? listed)

/-- A byte of the file is among those that a request for its sector moves. -/
theorem OpenFile.lt_transferred {index offset : Nat} (small : offset < sectorSize)
    (inside : ((index * sectorSize + offset : Nat) : Int) < file.hdr.fileLength) :
    offset < file.transferred sectorSize (index * sectorSize : Nat) := by
  have size : sectorSize = 128 := rfl
  have moves : ¬ ((sectorSize : Int) ≤ 0 ∨ ((index * sectorSize : Nat) : Int) ≥ file.hdr.fileLength) := by
    omega
  rw [OpenFile.transferred, if_neg moves, OpenFile.granted]
  split <;> omega

/-- A buffer that shows a file keeps showing it when more of the file is read into it. -/
theorem setCells_shows {buf memory : Buffer} {base place count at_ : Nat}
    (shown : buf at_ = memory (base + at_) ∨ place ≤ at_ ∧ at_ < place + count) :
    Blocks.setCells buf place (Blocks.cells memory (base + place) count) at_ =
      memory (base + at_) := by
  rw [Blocks.setCells_cells]
  split
  · congr 1
    omega
  · rename_i outside
    exact shown.resolve_right outside

/-- A read before a write shows the part of the file that was read. -/
theorem OpenFile.readFirst_eq (valid : file.hdr.Valid) (disk : Disk) (partly : Bool) (buf : Buffer)
    (index place : Nat) :
    file.readFirst disk partly buf index place =
      .ok (if partly then Blocks.setCells buf place (Blocks.cells (contents disk file.hdr)
        (index * sectorSize) (file.transferred sectorSize (index * sectorSize : Nat))) else buf) := by
  cases partly with
  | false => rfl
  | true =>
    rw [OpenFile.readFirst, if_pos rfl, if_pos rfl, ← Int.natCast_mul, OpenFile.readAt_eq valid]
    rfl

/-- Where it matters, the reads before a write show the file. -/
theorem OpenFile.shows_readFirst (disk : Disk) {garbage : Buffer} {low high at_ : Nat}
    {first last : Bool} (order : low ≤ high)
    (within : low * sectorSize + at_ < (high + 1) * sectorSize)
    (inside : ((low * sectorSize + at_ : Nat) : Int) < file.hdr.fileLength)
    (read : first = true ∧ at_ < sectorSize ∨ (high - low) * sectorSize ≤ at_ ∧
      (last = true ∨ first = true ∧ low = high)) :
    (if last then Blocks.setCells
        (if first then Blocks.setCells garbage 0 (Blocks.cells (contents disk file.hdr)
          (low * sectorSize) (file.transferred sectorSize (low * sectorSize : Nat))) else garbage)
        ((high - low) * sectorSize) (Blocks.cells (contents disk file.hdr) (high * sectorSize)
          (file.transferred sectorSize (high * sectorSize : Nat)))
      else if first then Blocks.setCells garbage 0 (Blocks.cells (contents disk file.hdr)
          (low * sectorSize) (file.transferred sectorSize (low * sectorSize : Nat))) else garbage)
      at_ = contents disk file.hdr (low * sectorSize + at_) := by
  have size : sectorSize = 128 := rfl
  have left : (high - low) * sectorSize = high * sectorSize - low * sectorSize :=
    Nat.sub_mul _ _ _
  have ordered : low * sectorSize ≤ high * sectorSize := Nat.mul_le_mul_right _ order
  have base : high * sectorSize = low * sectorSize + (high - low) * sectorSize := by omega
  have next : (high + 1) * sectorSize = high * sectorSize + sectorSize := Nat.succ_mul _ _
  -- The first read shows the first sector.
  have early : first = true → at_ < sectorSize → (if first then Blocks.setCells garbage 0
      (Blocks.cells (contents disk file.hdr) (low * sectorSize)
        (file.transferred sectorSize (low * sectorSize : Nat))) else garbage) at_ =
      contents disk file.hdr (low * sectorSize + at_) := by
    intro reads small
    rw [if_pos reads]
    exact setCells_shows (.inr ⟨Nat.zero_le _, by
      rw [Nat.zero_add]
      exact OpenFile.lt_transferred small inside⟩)
  cases last with
  -- Without the second read, the byte is in the first sector, or there is only one.
  | false =>
    rw [if_neg (by decide)]
    rcases read with ⟨reads, small⟩ | ⟨behind, reads⟩
    · exact early reads small
    · obtain ⟨both, rfl⟩ := reads.resolve_left (by decide)
      exact early both (by omega)
  -- The second read shows the last sector, and leaves what is before it.
  | true =>
    rw [if_pos rfl, base]
    apply setCells_shows
    rcases read with ⟨reads, small⟩ | ⟨behind, -⟩
    · exact .inl (early reads small)
    · refine .inr ⟨behind, ?_⟩
      rw [← base]
      have moved := @OpenFile.lt_transferred file high (at_ - (high - low) * sectorSize) (by omega)
        (by omega)
      omega

/-- `WriteAt` replaces the bytes of the request that lie inside the file, and nothing else of it. -/
theorem OpenFile.writeAt_spec (valid : file.hdr.Valid) (distinct : file.hdr.sectors.Nodup)
    (disk : Disk) (garbage source : Buffer) (numBytes : Int) (position : Nat) :
    ∃ after, file.writeAt disk garbage source numBytes position =
        .ok ((file.transferred numBytes position : Int), after) ∧
      (∀ place : Nat, (place : Int) < file.hdr.fileLength → contents after file.hdr place =
        if position ≤ place ∧ place < position + file.transferred numBytes position then
          source (place - position)
        else contents disk file.hdr place) ∧
      ∀ number : Nat, (number : Int) ∉ file.hdr.sectors →
        sectorOf after number = sectorOf disk number := by
  by_cases nothing : numBytes ≤ 0 ∨ (position : Int) ≥ file.hdr.fileLength
  · -- A request for nothing, or from behind the end, writes nothing.
    have none : file.transferred numBytes position = 0 := by
      rw [OpenFile.transferred, if_pos nothing]
    refine ⟨disk, ?_, ?_, fun _ _ => rfl⟩
    · rw [OpenFile.writeAt, if_pos nothing, none]
      rfl
    · intro place _
      rw [none, if_neg (by omega)]
  · obtain ⟨granted, some, inside⟩ := OpenFile.granted_eq nothing
    obtain ⟨first, last, order, used⟩ := OpenFile.span valid some inside
    rw [OpenFile.writeAt, if_neg nothing]
    simp only [granted, first, last]
    generalize file.transferred numBytes position = count at *
    have size : sectorSize = 128 := rfl
    -- The first and the last sector of the request, with the offsets in them.
    have begins := Nat.div_add_mod' position sectorSize
    have short := Nat.mod_lt position (show 0 < sectorSize by decide)
    generalize position / sectorSize = low at *
    have ends := Nat.div_add_mod' (position + count - 1) sectorSize
    have short' := Nat.mod_lt (position + count - 1) (show 0 < sectorSize by decide)
    generalize (position + count - 1) / sectorSize = high at *
    have place : (((high : Int) - low) * sectorSize).toNat = (high - low) * sectorSize := by
      rw [← Int.natCast_sub order, ← Int.natCast_mul, Int.toNat_natCast]
    have turns : (1 + (high : Int) - low).toNat = high + 1 - low := by omega
    -- The bytes go to where they belong in the buffer.
    have offset : OpenFile.bufferIndex ((position : Int) - low * sectorSize) =
        .ok (position - low * sectorSize) := by
      rw [← Int.natCast_mul, ← Int.natCast_sub (by omega), OpenFile.bufferIndex,
        if_pos (by omega), Int.toNat_natCast]
    rw [place, turns, offset, OpenFile.readFirst_eq valid, Runs.ok_bind,
      OpenFile.readFirst_eq valid, Runs.ok_bind, Runs.ok_bind, Int.toNat_natCast]
    generalize filled : (if (!(position + count : Int) == (high + 1) * sectorSize &&
      ((low : Int) != high || (position : Int) == low * sectorSize)) = true then _ else _) = buf
    -- Outside the request the buffer shows the file, because both ends were read where needed.
    have shows : ∀ at_ : Nat, low * sectorSize + at_ < (high + 1) * sectorSize →
        ((low * sectorSize + at_ : Nat) : Int) < file.hdr.fileLength →
        (low * sectorSize + at_ < position ∨ position + count ≤ low * sectorSize + at_) →
        buf at_ = contents disk file.hdr (low * sectorSize + at_) := by
      intro at_ within inside outside
      have last : (high + 1) * sectorSize = high * sectorSize + sectorSize := Nat.succ_mul _ _
      have left : (high - low) * sectorSize = high * sectorSize - low * sectorSize :=
        Nat.sub_mul _ _ _
      -- A request that starts inside a sector reads that sector first.
      have starts : position ≠ low * sectorSize →
          (!((position : Int) == low * sectorSize)) = true := by
        intro differ
        rw [Bool.not_eq_true', beq_eq_false_iff_ne, ← Int.natCast_mul]
        omega
      rw [← filled]
      refine OpenFile.shows_readFirst disk order within inside ?_
      rcases outside with before | behind
      · exact .inl ⟨starts (by omega), by omega⟩
      · -- A request that ends inside a sector reads the last one, unless the first read did.
        have stops : (!((position + count : Int) == (high + 1) * sectorSize)) = true := by
          rw [Bool.not_eq_true', beq_eq_false_iff_ne, ← Int.natCast_add, ← Int.natCast_one,
            ← Int.natCast_add, ← Int.natCast_mul]
          omega
        refine .inr ⟨by omega, ?_⟩
        rw [stops, Bool.true_and, Bool.or_eq_true, bne_iff_ne, beq_iff_eq]
        by_cases aligned : position = low * sectorSize
        · exact .inl (.inr (by rw [aligned, Int.natCast_mul]))
        · by_cases same : low = high
          · exact .inr ⟨starts aligned, same⟩
          · exact .inl (.inl (by omega))
    -- All sectors of the request are then written from the buffer.
    obtain ⟨after, written, changed, unchanged⟩ := @OpenFile.writeSectors_spec file valid distinct
      (Blocks.setCells buf (position - low * sectorSize) (Blocks.cells source 0 count))
      (high + 1 - low) low 0 disk (by omega)
    refine ⟨after, by rw [written]; rfl, ?_, unchanged⟩
    intro place small
    have covers := valid.covers
    have span : low + (high + 1 - low) = high + 1 := by omega
    have next : (high + 1) * sectorSize = high * sectorSize + sectorSize := Nat.succ_mul _ _
    have within : (place / sectorSize : Nat) < file.hdr.numSectors.toInt := by
      rw [sectorSize] at covers ⊢
      omega
    rw [changed place within, Nat.zero_mul, Nat.zero_add, span]
    -- A byte of these sectors comes from the source, or from what was read.
    by_cases touched : low * sectorSize ≤ place ∧ place < (high + 1) * sectorSize
    · rw [if_pos touched, Blocks.setCells_cells]
      by_cases mine : position ≤ place ∧ place < position + count
      · rw [if_pos mine, if_pos (by omega)]
        congr 1
        omega
      · rw [if_neg mine, if_neg (by omega), shows _ (by omega) (by omega) (by omega),
          Nat.add_sub_cancel' touched.1]
    · rw [if_neg touched, if_neg (by omega)]

end Nachos.Filesys
