import Nachos.Filesys.OpenFileLaws
import Nachos.Filesys.FileSystem

/-! What is kept on the disk in whole sectors and in whole files, and what a write leaves alone. -/

namespace Nachos.Filesys

/-- Two disks that differ in some sectors only. -/
def SameOutside (sectors : List Int) (before after : Disk) : Prop :=
  ∀ number : Nat, (number : Int) ∉ sectors → sectorOf after number = sectorOf before number

/-- The header that lies in a sector. -/
def headerOf (disk : Disk) (sector : Int) : FileHeader :=
  FileHeader.codec.decode (Blocks.cells disk (sector.toNat * sectorSize) sectorSize)

/-- All bytes of a file. -/
def stored (disk : Disk) (header : FileHeader) : List Byte :=
  Blocks.cells (contents disk header) 0 header.fileLength.toNat

variable {disk before middle after : Disk} {header : FileHeader} {file : OpenFile}

/-- Changes may follow each other. -/
theorem SameOutside.trans {first second : List Int} (early : SameOutside first before middle)
    (late : SameOutside second middle after) : SameOutside (first ++ second) before after := by
  intro number outside
  rw [List.mem_append, not_or] at outside
  exact (late number outside.2).trans (early number outside.1)

/-- A header is part of its sector. -/
theorem headerOf_congr {number : Nat} (same : sectorOf after number = sectorOf before number) :
    headerOf after number = headerOf before number := by
  -- A sector number out of range makes no difference here, the bytes are the same.
  have cells := Blocks.cells_of_block same (show 0 + sectorSize ≤ sectorSize by omega)
  rw [headerOf, headerOf, Int.toNat_natCast]
  exact congrArg FileHeader.codec.decode cells

/-- Fetching a header. -/
theorem FileHeader.fetchFrom_eq (disk : Disk) {number : Nat} (inside : number < Filesys.numSectors) :
    FileHeader.fetchFrom disk number = .ok (headerOf disk number) := by
  rw [FileHeader.fetchFrom, readSector_eq inside]
  rfl

/-- Writing a header back changes one sector. -/
theorem FileHeader.writeBack_spec (header : FileHeader) (disk : Disk) {number : Nat}
    (inside : number < Filesys.numSectors) :
    ∃ after, header.writeBack disk number = .ok after ∧ headerOf after number = header ∧
      SameOutside [(number : Int)] disk after := by
  have size : (FileHeader.codec.encode header).length = sectorSize := FileHeader.codec.length_encode _
  refine ⟨_, writeSector_eq inside _, ?_, ?_⟩
  · -- Decoding gives back the header that was encoded into the sector.
    rw [headerOf, Int.toNat_natCast]
    have read := Blocks.cells_setCells disk (number * sectorSize) (FileHeader.codec.encode header)
    rw [size] at read
    rw [read, FileHeader.codec.decode_encode]
  · -- Only the sector of the header changes.
    intro other outside
    apply sectorOf_setCells disk size
    rintro rfl
    exact outside List.mem_cons_self

/-- A file none of whose sectors changes keeps its bytes. -/
theorem stored_congr {changed : List Int} (valid : header.Valid)
    (apart : ∀ sector ∈ header.sectors, sector ∉ changed)
    (same : SameOutside changed before after) : stored after header = stored before header := by
  -- Byte by byte: each of them lies in a sector that the header lists.
  apply Blocks.cells_congr
  intro position inside
  have covers := valid.covers
  have used : (((0 + position) / sectorSize : Nat) : Int) < header.numSectors.toInt := by
    rw [sectorSize] at covers ⊢
    omega
  have unchanged := same _ (apart _ (List.mem_of_getElem? (valid.located used).2.1))
  exact congrFun unchanged ⟨(0 + position) % sectorSize, Nat.mod_lt _ (by decide)⟩

/-- A request for the whole file moves all of it. -/
theorem OpenFile.transferred_all {numBytes : Int} (whole : numBytes = file.hdr.fileLength) :
    file.transferred numBytes (0 : Nat) = file.hdr.fileLength.toNat := by
  rw [OpenFile.transferred, OpenFile.granted]
  split
  · omega
  · split <;> omega

/-- Fetching a whole file. -/
theorem OpenFile.readAt_all (valid : file.hdr.Valid) (disk : Disk) {numBytes : Int}
    (whole : numBytes = file.hdr.fileLength) :
    file.readAt disk numBytes 0 = .ok (stored disk file.hdr) := by
  have read := OpenFile.readAt_eq valid disk numBytes 0
  rw [OpenFile.transferred_all whole] at read
  exact read

/-- Writing a whole file. -/
theorem OpenFile.writeAt_all (valid : file.hdr.Valid) (distinct : file.hdr.sectors.Nodup)
    (disk : Disk) (garbage : Buffer) (bytes : List Byte)
    (whole : (bytes.length : Int) = file.hdr.fileLength) :
    ∃ count after, file.writeAt disk garbage (Buffer.ofList bytes) bytes.length 0 =
        .ok (count, after) ∧ stored after file.hdr = bytes ∧
      SameOutside file.hdr.sectors disk after := by
  obtain ⟨after, written, changed, unchanged⟩ := OpenFile.writeAt_spec valid distinct disk garbage
    (Buffer.ofList bytes) bytes.length 0
  rw [OpenFile.transferred_all whole] at changed
  refine ⟨_, after, written, ?_, unchanged⟩
  -- The request covers the file exactly, so every byte of it is the one that was written.
  have size : file.hdr.fileLength.toNat = bytes.length := by omega
  rw [stored, size]
  apply List.ext_getElem (Blocks.cells_length _ _ _)
  intro place inside inside'
  have read := Blocks.getElem?_cells (contents after file.hdr) 0 inside'
  rw [(List.getElem?_eq_some_iff.mp read).2, Nat.zero_add, changed place (by omega),
    if_pos (by omega), Buffer.ofList, Nat.sub_zero, List.getElem?_eq_getElem inside',
    Option.getD_some]

/-- Bytes that were read over a whole object replace all of it. -/
theorem overlay_all {old new : List Byte} (size : old.length = new.length) : overlay old new = new := by
  rw [overlay, ← size, List.drop_length, List.append_nil]

end Nachos.Filesys

namespace Nachos.BitMap

open Filesys

variable {disk : Disk} {file : OpenFile} {bitmap wanted : BitMap}

/-- The words of a map in memory take four bytes each. -/
theorem size_codec (bitmap : BitMap) : bitmap.codec.size = bitmap.map.length * 4 := rfl

/-- Every map of the right size is fetched from a file that holds it. -/
theorem fetchFrom_eq (valid : file.hdr.Valid) (whole : (wanted.codec.size : Int) = file.hdr.fileLength)
    (bits : bitmap.numBits = wanted.numBits) (words : bitmap.map.length = wanted.map.length)
    (held : stored disk file.hdr = wanted.codec.encode ⟨wanted.map, rfl⟩) :
    bitmap.fetchFrom file disk = .ok wanted := by
  have size : bitmap.codec.size = wanted.codec.size := by rw [size_codec, size_codec, words]
  -- What is read covers all the words of the map in memory.
  have covered : overlay (bitmap.codec.encode ⟨bitmap.map, rfl⟩) (stored disk file.hdr) =
      wanted.map.flatMap wordCodec.encode := by
    rw [overlay_all, held]
    · rfl
    · rw [held, bitmap.codec.length_encode, wanted.codec.length_encode, size]
  have read : (bitmap.codec.decode (wanted.map.flatMap wordCodec.encode)).1 = wanted.map :=
    wordCodec.decode_array words.symm
  rw [fetchFrom, OpenFile.readAt_all valid disk (by rw [size]; exact whole), Runs.ok_bind]
  simp only [covered]
  cases wanted
  simp only at bits read
  simp only [bits, read]
  rfl

/-- Writing a map back changes its file only. -/
theorem writeBack_spec (valid : file.hdr.Valid) (distinct : file.hdr.sectors.Nodup) (disk : Disk)
    (garbage : Buffer) (whole : (bitmap.codec.size : Int) = file.hdr.fileLength) :
    ∃ after, bitmap.writeBack file disk garbage = .ok after ∧
      stored after file.hdr = bitmap.codec.encode ⟨bitmap.map, rfl⟩ ∧
      SameOutside file.hdr.sectors disk after := by
  have size := bitmap.codec.length_encode ⟨bitmap.map, rfl⟩
  obtain ⟨count, after, written, held, same⟩ := OpenFile.writeAt_all valid distinct disk garbage
    (bitmap.codec.encode ⟨bitmap.map, rfl⟩) (by rw [size]; exact whole)
  rw [size] at written
  exact ⟨after, by rw [writeBack, written]; rfl, held, same⟩

end Nachos.BitMap

namespace Nachos.Filesys.Directory

variable {disk : Disk} {file : OpenFile} {directory wanted : Directory}

/-- The directory is fetched from a file that holds it. -/
theorem fetchFrom_eq (valid : file.hdr.Valid) (whole : (codec.size : Int) = file.hdr.fileLength)
    (held : stored disk file.hdr = codec.encode wanted) :
    directory.fetchFrom file disk = .ok wanted := by
  rw [fetchFrom, OpenFile.readAt_all valid disk whole, Runs.ok_bind, held,
    overlay_all (by rw [codec.length_encode, codec.length_encode]), codec.decode_encode]
  rfl

/-- Writing the directory back changes its file only. -/
theorem writeBack_spec (valid : file.hdr.Valid) (distinct : file.hdr.sectors.Nodup) (disk : Disk)
    (garbage : Buffer) (whole : (codec.size : Int) = file.hdr.fileLength) :
    ∃ after, directory.writeBack file disk garbage = .ok after ∧
      stored after file.hdr = codec.encode directory ∧ SameOutside file.hdr.sectors disk after := by
  have size := codec.length_encode directory
  obtain ⟨count, after, written, held, same⟩ := OpenFile.writeAt_all valid distinct disk garbage
    (codec.encode directory) (by rw [size]; exact whole)
  rw [size] at written
  exact ⟨after, by rw [writeBack, written]; rfl, held, same⟩

end Nachos.Filesys.Directory
