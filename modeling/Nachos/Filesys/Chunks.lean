import Nachos.Filesys.Storage

/-! A file may be written in chunks: only the bytes and where they begin make a difference. -/

namespace Nachos.Filesys

/-- What a caller of `Write` passes, next to what the allocator leaves in the buffer of the call. -/
structure Chunk where
  bytes : List Byte
  garbage : Buffer

/-- Calls of `Write` one after the other, with the sum of their results. -/
def OpenFile.writeAll (file : OpenFile) (disk : Disk) :
    List Chunk → Except Fault (Int × OpenFile × Disk)
  | [] => .ok (0, file, disk)
  | chunk :: rest => do
    let (result, file, disk) ←
      file.write disk chunk.garbage (Buffer.ofList chunk.bytes) chunk.bytes.length
    let (later, file, disk) ← file.writeAll disk rest
    return (result + later, file, disk)

/-- The bytes of all chunks. -/
def gather (chunks : List Chunk) : List Byte := chunks.flatMap Chunk.bytes

/-- The bytes of a file after some of them have been replaced, from one position on. -/
def replaced (old source : Buffer) (position count : Nat) : Buffer := fun place =>
  if position ≤ place ∧ place < position + count then source (place - position) else old place

variable {disk middle after : Disk} {file : OpenFile} {header : FileHeader}

/-- The disk changes in the bytes of a file from one position on, as far as the file reaches. -/
structure Replaces (header : FileHeader) (source : Buffer) (position count : Nat)
    (disk after : Disk) : Prop where
  bytes : ∀ place : Nat, (place : Int) < header.fileLength →
    contents after header place = replaced (contents disk header) source position count place
  outside : SameOutside header.sectors disk after

/-- The number of bytes that a request moves: those of the request that lie inside the file. -/
theorem OpenFile.transferred_eq (file : OpenFile) (numBytes : Int) (position : Nat) :
    (file.transferred numBytes position : Int) =
      if numBytes ≤ 0 ∨ (position : Int) ≥ file.hdr.fileLength then 0
      else min numBytes (file.hdr.fileLength - position) := by
  -- A request that begins behind the end moves nothing.
  rw [transferred, granted]
  split
  · rfl
  · split <;> omega

/-- A request behind another one moves what the first would have moved of both. -/
theorem OpenFile.transferred_add (file : OpenFile) (first second position : Nat) :
    file.transferred ((first + second : Nat) : Int) position =
      file.transferred first position +
        file.transferred second (position + file.transferred first position : Nat) := by
  -- All three amounts are what is left of a request inside the file.
  have whole := file.transferred_eq (first + second : Nat) position
  have early := file.transferred_eq first position
  have late := file.transferred_eq second (position + file.transferred first position)
  split at whole <;> split at early <;> split at late <;> omega

/-- A chunk is moved to its end, or the file ends before. -/
theorem OpenFile.transferred_short (file : OpenFile) (count position : Nat) :
    file.transferred count position ≤ count ∧
      (file.transferred count position < count →
        file.hdr.fileLength ≤ position + file.transferred count position) := by
  have moved := file.transferred_eq count position
  split at moved <;> omega

/-- `WriteAt` replaces bytes. -/
theorem OpenFile.writeAt_replaces (valid : file.hdr.Valid) (distinct : file.hdr.sectors.Nodup)
    (disk : Disk) (garbage source : Buffer) (numBytes : Int) (position : Nat) :
    ∃ after, file.writeAt disk garbage source numBytes position =
        .ok ((file.transferred numBytes position : Int), after) ∧
      Replaces file.hdr source position (file.transferred numBytes position) disk after := by
  -- The bytes outside of the range are those from before.
  obtain ⟨after, written, changed, unchanged⟩ :=
    OpenFile.writeAt_spec valid distinct disk garbage source numBytes position
  exact ⟨after, written, changed, unchanged⟩

/-- After bytes have been replaced, `ReadAt` shows the new ones and the others. -/
theorem Replaces.readAt (valid : file.hdr.Valid) {source : Buffer} {position count : Nat}
    (replaces : Replaces file.hdr source position count disk after) (numBytes : Int)
    (start : Nat) :
    file.readAt after numBytes start =
      .ok (Blocks.cells (replaced (contents disk file.hdr) source position count) start
        (file.transferred numBytes start)) := by
  rw [OpenFile.readAt_eq valid]
  -- All bytes that are read lie inside the file.
  refine congrArg Except.ok (Blocks.cells_congr fun offset small => ?_)
  refine replaces.bytes _ ?_
  have moved := file.transferred_eq numBytes start
  split at moved <;> omega

/-- Two changes in a row are one, if the first chunk is written to its end or the file is full. -/
theorem Replaces.append {first second : List Byte} {position early late : Nat}
    (short : early ≤ first.length)
    (full : early < first.length → header.fileLength ≤ position + early)
    (before : Replaces header (Buffer.ofList first) position early disk middle)
    (behind : Replaces header (Buffer.ofList second) (position + early) late middle after) :
    Replaces header (Buffer.ofList (first ++ second)) position (early + late) disk after := by
  refine ⟨fun place inside => ?_, fun number outside => ?_⟩
  · rw [behind.bytes place inside, replaced, replaced, before.bytes place inside, replaced]
    by_cases later : position + early ≤ place ∧ place < position + early + late
    · -- The byte comes from the second chunk, so the first one was written to its end.
      have whole : early = first.length := by omega
      have shifted : place - position = first.length + (place - (position + early)) := by omega
      rw [if_pos later, if_pos (by omega), shifted, Buffer.ofList, Buffer.ofList,
        List.getElem?_append_right (Nat.le_add_right _ _), Nat.add_sub_cancel_left]
    · -- Before the second chunk the first one decides.
      rw [if_neg later]
      by_cases now : position ≤ place ∧ place < position + early
      · rw [if_pos now, if_pos (by omega), Buffer.ofList, Buffer.ofList,
          List.getElem?_append_left (by omega)]
      · rw [if_neg now, if_neg (by omega)]
  · exact (behind.outside number outside).trans (before.outside number outside)

/-- `Write` replaces bytes from the seek position on, and moves it behind them. -/
theorem OpenFile.write_replaces (valid : file.hdr.Valid) (distinct : file.hdr.sectors.Nodup)
    (disk : Disk) (garbage source : Buffer) (numBytes : Int) {position : Nat}
    (seek : file.seekPosition = position) :
    ∃ after, file.write disk garbage source numBytes =
        .ok ((file.transferred numBytes position : Int),
          { file with seekPosition := (position + file.transferred numBytes position : Nat) },
          after) ∧
      Replaces file.hdr source position (file.transferred numBytes position) disk after := by
  -- `Write` is `WriteAt` at the seek position.
  obtain ⟨after, written, replaces⟩ :=
    OpenFile.writeAt_replaces valid distinct disk garbage source numBytes position
  refine ⟨after, ?_, replaces⟩
  rw [OpenFile.write, seek, written]
  rfl

/-- So do chunks, all together. -/
theorem OpenFile.writeAll_replaces (valid : header.Valid) (distinct : header.sectors.Nodup)
    (chunks : List Chunk) : ∀ {file : OpenFile} {position : Nat} (disk : Disk),
      file.hdr = header → file.seekPosition = position →
      ∃ after, file.writeAll disk chunks =
          .ok ((file.transferred (gather chunks).length position : Int),
            { file with seekPosition :=
              (position + file.transferred (gather chunks).length position : Nat) },
            after) ∧
        Replaces header (Buffer.ofList (gather chunks)) position
          (file.transferred (gather chunks).length position) disk after := by
  -- Each chunk is written from where the one before it has stopped.
  induction chunks with
  | nil =>
    intro file position disk same seek
    have nothing : file.transferred (0 : Nat) position = 0 := by
      have moved := file.transferred_eq (0 : Nat) position
      split at moved <;> omega
    have unchanged : Replaces header (Buffer.ofList []) position 0 disk disk :=
      ⟨fun place _ => by rw [replaced, if_neg (by omega)], fun number _ => rfl⟩
    refine ⟨disk, ?_, ?_⟩
    · rw [gather, List.flatMap_nil, List.length_nil, nothing, Nat.add_zero, ← seek]
      rfl
    · rw [gather, List.flatMap_nil, List.length_nil, nothing]
      exact unchanged
  | cons chunk rest ih =>
    intro file position disk same seek
    subst same
    obtain ⟨middle, written, before⟩ := OpenFile.write_replaces valid distinct disk chunk.garbage
      (Buffer.ofList chunk.bytes) chunk.bytes.length seek
    obtain ⟨after, later, behind⟩ := @ih
      { file with seekPosition := (position + file.transferred chunk.bytes.length position : Nat) }
      (position + file.transferred chunk.bytes.length position) middle rfl rfl
    have split : gather (chunk :: rest) = chunk.bytes ++ gather rest := List.flatMap_cons
    have moved := file.transferred_add chunk.bytes.length (gather rest).length position
    obtain ⟨short, full⟩ := file.transferred_short chunk.bytes.length position
    rw [split, List.length_append, moved]
    refine ⟨after, ?_, before.append short full behind⟩
    rw [OpenFile.writeAll, written, Runs.ok_bind]
    simp only [later, Runs.ok_bind, ← Nat.add_assoc]
    rfl

/--
A file behaves as the bytes below its length.

`WriteAt` replaces as many of them as there are, `ReadAt` shows the new bytes and the others, no
sector of another file changes, and writing chunks one after the other does what one `Write` of
their concatenation does.
-/
theorem OpenFile.read_write (valid : file.hdr.Valid) (distinct : file.hdr.sectors.Nodup)
    (disk : Disk) :
    (∀ (garbage source : Buffer) (numBytes : Int) (position : Nat), ∃ (count : Nat) (after : Disk),
      (count : Int) = (if numBytes ≤ 0 ∨ (position : Int) ≥ file.hdr.fileLength then 0
        else min numBytes (file.hdr.fileLength - position)) ∧
      file.writeAt disk garbage source numBytes position = .ok ((count : Int), after) ∧
      (∀ (size : Int) (start : Nat), file.readAt after size start =
        .ok (Blocks.cells (replaced (contents disk file.hdr) source position count) start
          (file.transferred size start))) ∧
      SameOutside file.hdr.sectors disk after) ∧
    ∀ (garbage : Buffer) (chunks : List Chunk) (position : Nat), file.seekPosition = position →
      ∃ (count : Int) (seeked : OpenFile) (after together : Disk),
        file.writeAll disk chunks = .ok (count, seeked, after) ∧
        file.write disk garbage (Buffer.ofList (gather chunks)) (gather chunks).length =
          .ok (count, seeked, together) ∧
        (∀ (size : Int) (start : Nat), file.readAt after size start = file.readAt together size start) ∧
        SameOutside file.hdr.sectors disk after ∧ SameOutside file.hdr.sectors disk together := by
  constructor
  · intro garbage source numBytes position
    obtain ⟨after, written, replaces⟩ :=
      OpenFile.writeAt_replaces valid distinct disk garbage source numBytes position
    exact ⟨_, after, file.transferred_eq numBytes position, written, replaces.readAt valid,
      replaces.outside⟩
  · intro garbage chunks position seek
    obtain ⟨after, chunked, replaces⟩ :=
      OpenFile.writeAll_replaces valid distinct chunks disk rfl seek
    obtain ⟨together, written, replaces'⟩ := OpenFile.write_replaces valid distinct disk garbage
      (Buffer.ofList (gather chunks)) (gather chunks).length seek
    refine ⟨_, _, after, together, chunked, written, fun size start => ?_, replaces.outside,
      replaces'.outside⟩
    -- Both disks show the same replaced bytes.
    rw [replaces.readAt valid, replaces'.readAt valid]

/-- A file of 200 bytes in two sectors of the disk. -/
def twoSectors : OpenFile :=
  ⟨⟨200, 2, [5, 3] ++ List.replicate 28 0, by rw [List.length_append, List.length_replicate]; rfl⟩,
    150⟩

/-- A request that goes beyond its end moves 50 bytes, which are then read. -/
theorem read_write_twoSectors : ∃ after : Disk,
    twoSectors.writeAt (fun _ => 0) (fun _ => 7) (fun _ => 1) 100 150 = .ok (50, after) ∧
      twoSectors.readAt after 3 149 = .ok [0, 1, 1] := by
  have valid : twoSectors.hdr.Valid := ⟨by decide, by decide, by decide⟩
  obtain ⟨count, after, moved, written, shown, -⟩ :=
    (OpenFile.read_write valid (by decide) fun _ => 0).1 (fun _ => 7) (fun _ => 1) 100 150
  -- The file has 50 bytes behind the position.
  have fifty : count = 50 := by
    rw [show twoSectors.hdr.fileLength = 200 from rfl] at moved
    omega
  subst fifty
  exact ⟨after, written, (shown 3 149).trans (by decide)⟩

end Nachos.Filesys
