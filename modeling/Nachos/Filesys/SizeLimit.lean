import Nachos.Filesys.Chunks
import Nachos.Filesys.Sound

/-! What becomes of files that are larger than a header can list. -/

namespace Nachos.Filesys

variable {fs : FileSystem} {freeMap : BitMap} {directory : Directory} {file : OpenFile}

/-- `Allocate` returns without storing outside of the table, and refuses what is too large. -/
def FileHeader.KeepsLimit (header : FileHeader) (freeMap : BitMap) (fileSize : BitVec 32) : Prop :=
  ∃ allocated header' after, header.allocate freeMap fileSize = .ok (allocated, header', after) ∧
    ((maxFileSize : Int) < fileSize.toInt → allocated = false)

/-- The file is small enough, or the map has too few clear bits for it. -/
def Bounded (freeMap : BitMap) (fileSize : BitVec 32) : Prop :=
  fileSize.toInt ≤ maxFileSize ∨ (freeMap.numClear : Int) < divRoundUp fileSize.toInt sectorSize

/-- A store outside of the table is made as soon as its entries are used up. -/
theorem FileHeader.allocateSectors_overrun {count : Nat} : ∀ {index : Nat} {header : FileHeader}
    {freeMap : BitMap}, index ≤ numDirect → numDirect < index + count →
      FileHeader.allocateSectors count index header freeMap = .error (.wildAccess numDirect) := by
  induction count with
  | zero =>
    intro index header freeMap inside beyond
    omega
  | succ count ih =>
    intro index header freeMap inside beyond
    rw [FileHeader.allocateSectors]
    split
    rename_i sector after _
    rcases Nat.lt_or_eq_of_le inside with room | full
    · -- This entry is still there, a later one is not.
      rw [FileHeader.setDataSector, if_pos room]
      exact ih room (by omega)
    · rw [FileHeader.setDataSector, if_neg (by omega), full]
      rfl

/-- A file needs more entries than there are exactly if it is larger than files may be. -/
theorem divRoundUp_le_iff (fileSize : Int) :
    divRoundUp fileSize sectorSize ≤ numDirect ↔ fileSize ≤ maxFileSize := by
  -- The limit is as many whole sectors as the table has entries.
  have bounds := divRoundUp_bounds fileSize
  have most : (maxFileSize : Int) = 3840 := rfl
  have direct : (numDirect : Int) = 30 := rfl
  have sector : (sectorSize : Int) = 128 := rfl
  rw [sector, most, direct]
  omega

/-- `Allocate` runs into the end of the table when a large file fits into the free sectors. -/
theorem FileHeader.allocate_overrun (header : FileHeader) {fileSize : BitVec 32}
    (large : (maxFileSize : Int) < fileSize.toInt)
    (enough : divRoundUp fileSize.toInt sectorSize ≤ freeMap.numClear) :
    header.allocate freeMap fileSize = .error (.wildAccess numDirect) := by
  -- The loop needs more entries than the table has.
  have beyond := not_iff_not.mpr (divRoundUp_le_iff fileSize.toInt)
  rw [FileHeader.allocate]
  dsimp only
  rw [toInt_divRoundUp, if_neg (by omega),
    FileHeader.allocateSectors_overrun (Nat.zero_le _) (by omega)]
  rfl

/-- `Allocate` fills in the table of a small file, or refuses it. -/
theorem FileHeader.allocate_small (header : FileHeader) (freeMap : BitMap) {fileSize : BitVec 32}
    (small : fileSize.toInt ≤ maxFileSize) :
    ∃ result, header.allocate freeMap fileSize = .ok result := by
  -- The table is long enough, so only the free sectors can be too few.
  have fits := (divRoundUp_le_iff fileSize.toInt).mpr small
  by_cases few : (freeMap.numClear : Int) < divRoundUp fileSize.toInt sectorSize
  · obtain ⟨header', after, refused⟩ := header.allocate_refused few
    exact ⟨_, refused⟩
  · obtain ⟨new, header', after, filled, -⟩ :=
      @allocateSectors_spec (divRoundUp fileSize.toInt sectorSize).toNat 0
        { header with
          numBytes := fileSize
          numSectors := BitVec.ofInt 32 (divRoundUp fileSize.toInt sectorSize) } freeMap
        (by omega) (by omega)
    refine ⟨(true, header', after), ?_⟩
    rw [FileHeader.allocate]
    dsimp only
    rw [toInt_divRoundUp, if_neg few, filled]
    rfl

/-- `Allocate` keeps the limit exactly if the file is small or there are too few free sectors. -/
theorem FileHeader.keepsLimit_iff (header : FileHeader) (freeMap : BitMap)
    (fileSize : BitVec 32) : header.KeepsLimit freeMap fileSize ↔ Bounded freeMap fileSize := by
  by_cases few : (freeMap.numClear : Int) < divRoundUp fileSize.toInt sectorSize
  · obtain ⟨header', after, refused⟩ := header.allocate_refused few
    exact iff_of_true ⟨false, header', after, refused, fun _ => rfl⟩ (.inr few)
  by_cases small : fileSize.toInt ≤ maxFileSize
  · obtain ⟨⟨allocated, header', after⟩, done⟩ := header.allocate_small freeMap small
    exact iff_of_true ⟨allocated, header', after, done, fun large => by omega⟩ (.inl small)
  · -- The table is too short, and nothing stops the loop.
    refine iff_of_false ?_ (fun bounded => bounded.elim small few)
    intro kept
    obtain ⟨allocated, header', after, done, -⟩ := kept
    rw [header.allocate_overrun (by omega) (by omega)] at done
    cases done

/-- `Create` answers, and refuses what is too large without a change. -/
def FileSystem.KeepsLimit (fs : FileSystem) (garbage : Garbage) (name : List Byte)
    (initialSize : BitVec 32) : Prop :=
  ∃ success after, fs.create garbage name initialSize = .ok (success, after) ∧
    ((maxFileSize : Int) < initialSize.toInt → success = false ∧ after = fs)

/-- `Create` gets as far as the header: the name is new, and there are a sector and an entry. -/
def FileSystem.Admits (fs : FileSystem) (garbage : Garbage) (name : List Byte)
    (freeMap : BitMap) : Prop :=
  ∃ directory directory' bitmap sector,
    (Directory.new garbage.directory).fetchFrom fs.directoryFile fs.disk = .ok directory ∧
    directory.find name = -1 ∧
    garbage.newMap.fetchFrom fs.freeMapFile fs.disk = .ok bitmap ∧
    bitmap.find = some (sector, freeMap) ∧
    directory.add name (BitVec.ofNat 32 sector) = some directory'

/-- A file that `Create` gets to allocate is small enough, or larger than the free space. -/
def Fits (fs : FileSystem) : Action → Prop
  | .create garbage name initialSize =>
    ∀ freeMap, fs.Admits garbage name freeMap → Bounded freeMap initialSize
  | .remove _ _ => True

/-- What is fetched from the disk decides how far `Create` gets. -/
theorem Keeps.admits_iff (keeps : Keeps fs freeMap directory) (garbage : Garbage)
    (name : List Byte) (left : BitMap) :
    fs.Admits garbage name left ↔ directory.find name = -1 ∧ ∃ directory' sector,
      freeMap.find = some (sector, left) ∧
        directory.add name (BitVec.ofNat 32 sector) = some directory' := by
  constructor
  · intro admits
    obtain ⟨directory₁, directory', freeMap₁, sector, fetched, missing, fetched', rest⟩ := admits
    -- The files of the file system hold the directory and the map.
    rw [keeps.fetchDirectory] at fetched
    rw [keeps.fetchMap] at fetched'
    cases fetched
    cases fetched'
    exact ⟨missing, directory', sector, rest⟩
  · intro found
    obtain ⟨missing, directory', sector, rest⟩ := found
    exact ⟨directory, directory', freeMap, sector, keeps.fetchDirectory garbage, missing,
      keeps.fetchMap garbage, rest⟩

/-- `Create` of a file that is too large, as far as the files of the file system decide it. -/
theorem Keeps.create_large (keeps : Keeps fs freeMap directory) (garbage : Garbage)
    (name : List Byte) {initialSize : BitVec 32} (large : (maxFileSize : Int) < initialSize.toInt) :
    (∃ left, fs.Admits garbage name left ∧ ¬ Bounded left initialSize ∧
      fs.create garbage name initialSize = .error (.wildAccess numDirect)) ∨
    (∀ left, fs.Admits garbage name left → Bounded left initialSize) ∧
      fs.create garbage name initialSize = .ok (false, fs) := by
  simp only [keeps.admits_iff]
  rw [FileSystem.create, keeps.fetchDirectory, Runs.ok_bind]
  split
  · rename_i present
    exact .inr ⟨fun left admits => absurd admits.1 present, rfl⟩
  · rename_i missing
    rw [keeps.fetchMap, Runs.ok_bind]
    split
    · rename_i full
      refine .inr ⟨fun left admits => ?_, rfl⟩
      obtain ⟨-, directory', sector, found, -⟩ := admits
      rw [full] at found
      cases found
    · rename_i sector left found
      split
      · rename_i crowded
        refine .inr ⟨fun left' admits => ?_, rfl⟩
        obtain ⟨-, directory', sector', found', added⟩ := admits
        rw [found] at found'
        cases found'
        rw [crowded] at added
        cases added
      · rename_i directory' added
        by_cases few : (left.numClear : Int) < divRoundUp initialSize.toInt sectorSize
        · -- The file does not fit into the free space, so it is refused.
          obtain ⟨header, after, refused⟩ := garbage.header.allocate_refused few
          refine .inr ⟨fun left' admits => ?_, ?_⟩
          · obtain ⟨-, -, sector', found', -⟩ := admits
            rw [found] at found'
            cases found'
            exact .inr few
          · rw [refused]
            rfl
        · -- The file fits into the free space, but not into its header.
          refine .inl ⟨left, ⟨not_not.mp missing, directory', sector, found, added⟩, ?_, ?_⟩
          · exact fun bounded => bounded.elim (by omega) few
          · rw [garbage.header.allocate_overrun large (by omega)]
            rfl

/-- `Create` keeps the limit exactly if what it gets to allocate is bounded. -/
theorem Keeps.keepsLimit_iff (keeps : Keeps fs freeMap directory)
    (allocated : Allocated fs.disk freeMap directory) (garbage : Garbage) (name : List Byte)
    (initialSize : BitVec 32) :
    fs.KeepsLimit garbage name initialSize ↔ Fits fs (.create garbage name initialSize) := by
  by_cases small : initialSize.toInt ≤ maxFileSize
  · -- A small file is created or refused.
    refine iff_of_true ?_ fun left _ => .inl small
    rcases create_spec keeps allocated garbage name small with failed | ⟨after, _, _, done, -⟩
    · exact ⟨false, fs, failed, fun large => by omega⟩
    · exact ⟨true, after, done, fun large => by omega⟩
  · rcases keeps.create_large garbage name (by omega : (maxFileSize : Int) < initialSize.toInt) with
      ⟨left, admits, unbounded, overrun⟩ | ⟨bounded, refused⟩
    · refine iff_of_false (fun kept => ?_) fun fits => unbounded (fits left admits)
      obtain ⟨success, after, done, -⟩ := kept
      rw [overrun] at done
      cases done
    · exact iff_of_true ⟨false, fs, refused, fun _ => ⟨rfl, rfl⟩⟩ bounded

/-- Every request that fits is answered and keeps the disk sound. -/
theorem Sound.perform {action : Action} (sound : Sound fs) (fits : Fits fs action) :
    ∃ success after, perform fs action = .ok (success, after) ∧ Sound after := by
  cases action with
  | remove garbage name =>
    obtain ⟨success, after, done, sound', -⟩ :=
      perform_spec sound (show SizeAllowed fs (.remove garbage name) from trivial)
    exact ⟨success, after, done, sound'⟩
  | create garbage name initialSize =>
    by_cases small : initialSize.toInt ≤ maxFileSize
    · obtain ⟨success, after, done, sound', -⟩ :=
        perform_spec sound (show SizeAllowed fs (.create garbage name initialSize) from small)
      exact ⟨success, after, done, sound'⟩
    · -- A large file that fits is refused without a change.
      obtain ⟨freeMap, directory, keeps, allocated⟩ := sound
      obtain ⟨success, after, done, refused⟩ :=
        (keeps.keepsLimit_iff allocated garbage name initialSize).mpr fits
      obtain ⟨-, rfl⟩ := refused (by omega)
      exact ⟨success, after, done, freeMap, directory, keeps, allocated⟩

/-- The disk is sound after every run of requests that fit. -/
theorem sound_of_fits (reached : Runs.Reachable step Formatted Fits fs) : Sound fs := by
  refine reached.invariant Sound ?_ ?_
  · intro fs formatted
    exact sound_of_reachable (.start formatted)
  · intro fs action after sound fits done
    -- One request that fits ends in a sound disk.
    obtain ⟨success, after', performed, sound'⟩ := sound.perform fits
    rw [step, performed, Runs.ok_bind] at done
    cases done
    exact sound'

/-- `ReadAt` of a file depends on the sectors that its header lists, and on no other. -/
theorem OpenFile.readAt_congr {disk other : Disk} (valid : file.hdr.Valid)
    (same : ∀ number : Nat, (number : Int) ∈ file.hdr.sectors →
      sectorOf other number = sectorOf disk number) (numBytes : Int) (start : Nat) :
    file.readAt other numBytes start = file.readAt disk numBytes start := by
  rw [OpenFile.readAt_eq valid, OpenFile.readAt_eq valid]
  refine congrArg Except.ok (Blocks.cells_congr fun offset small => ?_)
  have moved := file.transferred_eq numBytes start
  have covers := valid.covers
  -- A byte that is read lies in a sector that is in use.
  have used : (((start + offset) / sectorSize : Nat) : Int) < file.hdr.numSectors.toInt := by
    rw [sectorSize] at covers ⊢
    split at moved <;> omega
  have unchanged := same _ (List.mem_of_getElem? (valid.located used).2.1)
  exact congrFun unchanged ⟨(start + offset) % sectorSize, Nat.mod_lt _ (by decide)⟩

/-- An open file belongs to a directory entry, and is read from the sectors of this entry. -/
structure OpenFile.BelongsTo (file : OpenFile) (disk : Disk) (entry : DirectoryEntry) : Prop where
  sectors : entrySectors disk entry = entry.sector.toInt :: file.hdr.sectors
  reads : ∀ (size : Int) (start : Nat), ∃ bytes, file.readAt disk size start = .ok bytes ∧
    ∀ other : Disk, (∀ number : Nat, (number : Int) ∈ file.hdr.sectors →
      sectorOf other number = sectorOf disk number) → file.readAt other size start = .ok bytes

/-- `Open` answers with a file that belongs to the entry of that name. -/
theorem Keeps.openFile_spec (keeps : Keeps fs freeMap directory)
    (allocated : Allocated fs.disk freeMap directory) (garbage : Garbage) (name : List Byte) :
    ∃ found, fs.openFile garbage name = .ok found ∧ ∀ file, found = some file →
      ∃ entry ∈ directory.table, entry.isFor name = true ∧ file.BelongsTo fs.disk entry := by
  rw [FileSystem.openFile, keeps.fetchDirectory, Runs.ok_bind]
  cases found : directory.findIndex name with
  | none =>
    -- The sector is -1 then.
    have missing : directory.find name = -1 := by simp [Directory.find, found]
    refine ⟨none, ?_, fun file absent => ?_⟩
    · rw [missing]
      rfl
    · cases absent
  | some index =>
    obtain ⟨entry, located, used, agrees⟩ := Directory.findIndex_eq_some found
    have member := List.mem_of_getElem? located
    have named : entry.isFor name = true := by
      rw [DirectoryEntry.isFor, used, agrees]
      rfl
    have mine : entrySectors fs.disk entry =
        entry.sector.toInt :: (headerOf fs.disk entry.sector.toInt).sectors := by
      rw [entrySectors, if_pos used]
    have valid := allocated.valid entry member used
    obtain ⟨natural, inside⟩ := allocated.inside entry.sector.toInt
      (mem_usedSectors_of_entry member (by rw [mine]; exact List.mem_cons_self))
    rw [Directory.find_eq found located]
    dsimp only
    rw [if_pos natural]
    obtain ⟨number, same⟩ := Int.eq_ofNat_of_zero_le natural
    have opened : OpenFile.new fs.disk entry.sector.toInt =
        .ok ⟨headerOf fs.disk entry.sector.toInt, 0⟩ := by
      rw [OpenFile.new, same, FileHeader.fetchFrom_eq _ (by omega)]
      rfl
    rw [opened]
    refine ⟨_, rfl, fun file this => ?_⟩
    cases this
    refine ⟨entry, member, named, mine, fun size start => ⟨_, OpenFile.readAt_eq valid _ _ _, ?_⟩⟩
    intro other same
    rw [OpenFile.readAt_congr valid same, OpenFile.readAt_eq valid]

/--
The size of files is limited exactly as far as the free space limits it.

`Allocate` stays inside the table of a header, and `Create` refuses what is too large, if and only
if the file is small enough or larger than the free space. As long as all requests are such, every
file that is opened, read or removed has sectors of its own.
-/
theorem limit_iff_fits (reached : Runs.Reachable step Formatted Fits fs) :
    (∀ (header : FileHeader) (freeMap : BitMap) (fileSize : BitVec 32),
      header.KeepsLimit freeMap fileSize ↔ Bounded freeMap fileSize) ∧
    (∀ garbage name initialSize,
      fs.KeepsLimit garbage name initialSize ↔ Fits fs (.create garbage name initialSize)) ∧
    ∃ freeMap directory, Keeps fs freeMap directory ∧ Allocated fs.disk freeMap directory ∧
      (∀ garbage name, ∃ found, fs.openFile garbage name = .ok found ∧ ∀ file, found = some file →
        ∃ entry ∈ directory.table, entry.isFor name = true ∧ file.BelongsTo fs.disk entry) ∧
      ∀ garbage name, fs.remove garbage name = .ok (false, fs) ∨
        ∃ after freeMap' directory', fs.remove garbage name = .ok (true, after) ∧
          (Keeps after freeMap' directory' ∧ Allocated after.disk freeMap' directory') ∧
          ∃ entry ∈ directory.table, entry.isFor name = true ∧
            BitMap.Given freeMap freeMap' fun number =>
              (number : Int) ∈ entrySectors fs.disk entry := by
  obtain ⟨freeMap, directory, keeps, allocated⟩ := sound_of_fits reached
  exact ⟨FileHeader.keepsLimit_iff, keeps.keepsLimit_iff allocated, freeMap, directory, keeps,
    allocated, keeps.openFile_spec allocated, remove_spec keeps allocated⟩

/-- On a disk that was just formatted, a file of 200 bytes is within the limit. -/
theorem limit_iff_fits_formatted : ∃ fs, FileSystem.format (fun _ => 255) leftovers = .ok fs ∧
    fs.KeepsLimit leftovers [65] 200 := by
  obtain ⟨fs, freeMap, directory, formatted, -⟩ := format_spec (fun _ => 255) leftovers
  refine ⟨fs, formatted, ?_⟩
  exact ((limit_iff_fits (.start ⟨_, _, formatted⟩)).2.1 leftovers [65] 200).mpr
    fun left _ => .inl (by decide)

/-- One byte more than the header can list is stored outside of its table. -/
theorem not_keepsLimit_oneMore : ∃ fs, FileSystem.format (fun _ => 255) leftovers = .ok fs ∧
    fs.create leftovers [65] 3841 = .error (.wildAccess 30) ∧ ¬ fs.KeepsLimit leftovers [65] 3841 := by
  have answer : (match FileSystem.format (fun _ => 255) leftovers with
    | .error _ => false
    | .ok fs =>
      match fs.create leftovers [65] 3841 with
      | .error (.wildAccess 30) => true
      | _ => false) = true := by decide +kernel
  -- The run is evaluated up to its end, which is the access behind the table.
  split at answer
  · cases answer
  · rename_i fs formatted
    split at answer
    · rename_i overrun
      refine ⟨fs, formatted, overrun, fun kept => ?_⟩
      obtain ⟨success, after, done, -⟩ := kept
      rw [overrun] at done
      cases done
    · cases answer

end Nachos.Filesys
