import Mathlib.Data.List.Pairwise
import Nachos.Filesys.Chunks
import Nachos.Filesys.Session
import Nachos.Filesys.Sound

/-! The files that a disk holds, under the names that the directory keeps, and the space they take. -/

namespace Nachos.Filesys

/-- What the directory keeps of a name: the beginning of the string, up to a limit. -/
def keptChars (limit : Nat) (name : List Byte) : List Byte :=
  (name.takeWhile fun char => char != 0).take limit

/-- What the directory keeps of the name of a file. -/
def kept (name : List Byte) : List Byte := keptChars fileNameMaxLen name

/-- The file of an entry, if it is in use. -/
def fileOf (disk : Disk) (entry : DirectoryEntry) : List (List Byte × List Byte) :=
  if entry.inUse then [(kept entry.name.1, stored disk (headerOf disk entry.sector.toInt))] else []

/-- The files of a directory. -/
def shelved (disk : Disk) (directory : Directory) : List (List Byte × List Byte) :=
  directory.table.flatMap (fileOf disk)

/-- The sectors that a file of a length takes, with its header. -/
def sectorsFor (length : Nat) : Nat := 1 + (length + (sectorSize - 1)) / sectorSize

/-- A directory has ten entries, and five sectors are not for files. -/
def limits : Files.Limits := ⟨numDirEntries, numSectors - 5, sectorsFor⟩

/-- A header lists just as many sectors as its file needs. -/
def FileHeader.Tight (header : FileHeader) : Prop :=
  header.sectors.length = (divRoundUp header.fileLength sectorSize).toNat

/-- The free map and the directory agree with the disk, and no header lists a sector too many. -/
structure Mounted (fs : FileSystem) (freeMap : BitMap) (directory : Directory) : Prop where
  keeps : Keeps fs freeMap directory
  allocated : Allocated fs.disk freeMap directory
  system : (systemSectors fs.disk).length = 3
  tight : ∀ entry ∈ directory.table, entry.inUse = true →
    (headerOf fs.disk entry.sector.toInt).Tight

variable {disk after : Disk} {freeMap freeMap' : BitMap} {directory directory' : Directory}
  {fs : FileSystem} {name : List Byte} {entry : DirectoryEntry}

/-- Nothing is kept without a character to keep. -/
@[simp] theorem keptChars_zero (name : List Byte) : keptChars 0 name = [] := List.take_zero

/-- The first character is kept, and what is kept of the others, unless the string ends. -/
theorem keptChars_succ (limit : Nat) (name : List Byte) : keptChars (limit + 1) name =
    if name.headD 0 = 0 then [] else name.headD 0 :: keptChars limit name.tail := by
  cases name with
  | nil => rfl
  | cons char rest =>
    rw [keptChars, List.takeWhile_cons, List.headD_cons, List.tail_cons]
    by_cases ended : char = 0
    · rw [if_pos ended, ended]
      rfl
    · rw [if_neg ended, if_pos (bne_iff_ne.mpr ended)]
      rfl

/-- Strings agree up to a limit exactly if the same is kept of them. -/
theorem strncmp_eq_zero_iff {limit : Nat} {first second : List Byte} :
    strncmp limit first second = 0 ↔ keptChars limit first = keptChars limit second := by
  induction limit generalizing first second with
  | zero => simp [strncmp]
  | succ limit ih =>
    rw [strncmp_succ_eq_zero, ih]
    rw [keptChars_succ, keptChars_succ]
    by_cases ended : first.headD 0 = 0
    · -- Nothing is kept of a string that ends here.
      rw [if_pos ended, ended]
      by_cases ended' : second.headD 0 = 0
      · rw [if_pos ended', ended']
        exact iff_of_true ⟨rfl, .inl rfl⟩ rfl
      · rw [if_neg ended']
        exact iff_of_false (fun agree => ended' agree.1.symm) (by simp)
    · rw [if_neg ended]
      by_cases ended' : second.headD 0 = 0
      · rw [if_pos ended', ended']
        exact iff_of_false (fun agree => ended agree.1) (by simp)
      · -- Both go on, so their first characters and the rest have to agree.
        rw [if_neg ended', List.cons.injEq]
        exact and_congr_right fun _ => or_iff_right ended

/-- An entry is for a name exactly if it is in use and keeps the same. -/
theorem isFor_iff : entry.isFor name = true ↔ entry.inUse = true ∧ kept entry.name.1 = kept name := by
  rw [DirectoryEntry.isFor, Bool.and_eq_true, beq_iff_eq, strncmp_eq_zero_iff]
  rfl

/-- A new entry keeps the name that it was created for. -/
theorem kept_occupy (entry : DirectoryEntry) (name : List Byte) (sector : BitVec 32) :
    kept (entry.occupy name sector).name.1 = kept name := by
  -- What was stored agrees with itself, and so with the string that it was copied out of.
  have self : strncmp fileNameMaxLen (entry.occupy name sector).name.1
      (strncpy fileNameMaxLen entry.name.1 name) = 0 := strncmp_eq_zero_iff.mpr rfl
  exact strncmp_eq_zero_iff.mp (strncmp_strncpy.mp self)

/-- The files of a directory, one by one. -/
theorem mem_shelved {file : List Byte × List Byte} : file ∈ shelved disk directory ↔
    ∃ entry ∈ directory.table, entry.inUse = true ∧
      (kept entry.name.1, stored disk (headerOf disk entry.sector.toInt)) = file := by
  simp only [shelved, List.mem_flatMap, fileOf]
  constructor
  · rintro ⟨entry, member, listed⟩
    split at listed
    · rename_i used
      exact ⟨entry, member, used, (List.mem_singleton.mp listed).symm⟩
    · cases listed
  · rintro ⟨entry, member, used, rfl⟩
    refine ⟨entry, member, ?_⟩
    rw [if_pos used]
    exact List.mem_singleton_self _

/-- An entry that is for a name holds the file of that name. -/
theorem mem_shelved_of_isFor (disk : Disk) (member : entry ∈ directory.table)
    (named : entry.isFor name = true) :
    (kept name, stored disk (headerOf disk entry.sector.toInt)) ∈ shelved disk directory := by
  obtain ⟨used, same⟩ := isFor_iff.mp named
  exact mem_shelved.mpr ⟨entry, member, used, by rw [same]⟩

/-- A name is found exactly if it is the name of a file. -/
theorem findIndex_isSome_iff : (directory.findIndex name).isSome ↔
    kept name ∈ (shelved disk directory).map Prod.fst := by
  rw [Directory.findIndex, List.findIdx?_isSome, List.any_eq_true, List.mem_map]
  constructor
  · rintro ⟨entry, member, named⟩
    obtain ⟨used, same⟩ := isFor_iff.mp named
    exact ⟨_, mem_shelved.mpr ⟨entry, member, used, rfl⟩, same⟩
  · rintro ⟨file, listed, same⟩
    obtain ⟨entry, member, used, rfl⟩ := mem_shelved.mp listed
    exact ⟨entry, member, isFor_iff.mpr ⟨used, same⟩⟩

/-- The names of files differ. -/
theorem Directory.NamesDiffer.nodup (differ : directory.NamesDiffer) (disk : Disk) :
    ((shelved disk directory).map Prod.fst).Nodup := by
  have named : ∀ entry : DirectoryEntry, (fileOf disk entry).map Prod.fst =
      if entry.inUse then [kept entry.name.1] else [] := by
    intro entry
    rw [fileOf]
    split <;> rfl
  rw [shelved, List.map_flatMap, List.nodup_flatMap]
  refine ⟨fun entry _ => ?_, List.pairwise_iff_getElem.mpr ?_⟩
  · rw [named]
    split <;> simp
  · -- Two entries that kept the same name would be one entry.
    intro index other inside inside' before
    refine List.disjoint_left.mpr fun key listed listed' => ?_
    change _ ∈ (fileOf disk _).map Prod.fst at listed listed'
    rw [named] at listed listed'
    split at listed
    · rename_i used
      split at listed'
      · rename_i used'
        have same := (List.mem_singleton.mp listed).symm.trans (List.mem_singleton.mp listed')
        have equal := differ index other _ _ (List.getElem?_eq_getElem inside)
          (List.getElem?_eq_getElem inside') used used' (strncmp_eq_zero_iff.mpr same)
        omega
      · cases listed'
    · cases listed

/-- Two entries in use that keep the same name are one. -/
theorem Directory.NamesDiffer.eq_of_kept {other : DirectoryEntry} (differ : directory.NamesDiffer)
    (member : entry ∈ directory.table) (member' : other ∈ directory.table)
    (used : entry.inUse = true) (used' : other.inUse = true)
    (same : kept entry.name.1 = kept other.name.1) : entry = other := by
  obtain ⟨index, located⟩ := List.getElem?_of_mem member
  obtain ⟨index', located'⟩ := List.getElem?_of_mem member'
  have equal := differ index index' entry other located located' used used'
    (strncmp_eq_zero_iff.mpr same)
  exact Option.some.inj (located.symm.trans (equal ▸ located'))

/-- The sectors of a file and its header, from the length of the file. -/
theorem FileHeader.Tight.sectorsFor {header : FileHeader} (tight : header.Tight) :
    1 + header.sectors.length = Filesys.sectorsFor header.fileLength.toNat := by
  have bounds := divRoundUp_bounds header.fileLength
  have size : sectorSize = 128 := rfl
  have size' : (sectorSize : Int) = 128 := rfl
  rw [tight, Filesys.sectorsFor, size', size]
  omega

/-- As many bytes are stored as the header says. -/
@[simp] theorem length_stored (disk : Disk) (header : FileHeader) :
    (stored disk header).length = header.fileLength.toNat := Blocks.cells_length _ _ _

/-- There are as many files as entries in use. -/
theorem length_shelved (disk : Disk) (directory : Directory) :
    (shelved disk directory).length = directory.table.countP fun entry => entry.inUse := by
  rw [shelved]
  induction directory.table with
  | nil => rfl
  | cons entry rest ih =>
    -- An entry in use is one file, any other is none.
    rw [List.flatMap_cons, List.length_append, ih, List.countP_cons, fileOf]
    split <;> simp +arith

/-- The sectors that the entries of a directory use are those that its files take. -/
theorem length_entrySectors {entries : List DirectoryEntry} (tight : ∀ entry ∈ entries,
    entry.inUse = true → (headerOf disk entry.sector.toInt).Tight) :
    (entries.flatMap (entrySectors disk)).length =
      ((entries.flatMap (fileOf disk)).map fun file => sectorsFor file.2.length).sum := by
  induction entries with
  | nil => rfl
  | cons entry rest ih =>
    have later := ih fun other member => tight other (List.mem_cons_of_mem _ member)
    rw [List.flatMap_cons, List.flatMap_cons, List.length_append, List.map_append, List.sum_append,
      later]
    congr 1
    -- An entry in use takes a header and what the header lists.
    rw [entrySectors, fileOf]
    split
    · rename_i used
      have space := (tight entry List.mem_cons_self used).sectorsFor
      simp only [List.length_cons, List.map_cons, List.map_nil, List.sum_singleton, length_stored]
      omega
    · rfl

/-- The bits that are clear and the sectors in use make up the disk. -/
theorem Allocated.numClear_add (allocated : Allocated disk freeMap directory)
    (bits : freeMap.numBits = numSectors) :
    freeMap.numClear + (usedSectors disk directory).length = numSectors := by
  -- The bits that are set are just the sectors in use, in another order.
  have perm : ((List.range numSectors).filter fun number => freeMap.testBit number).Perm
      ((usedSectors disk directory).map Int.toNat) := by
    refine (List.perm_ext_iff_of_nodup (List.nodup_range.filter _) ?_).mpr ?_
    · refine allocated.distinct.map_on ?_
      intro sector member other member' same
      have := (allocated.inside sector member).1
      have := (allocated.inside other member').1
      omega
    · intro number
      rw [List.mem_filter, List.mem_range, List.mem_map]
      constructor
      · rintro ⟨inside, marked⟩
        exact ⟨number, (allocated.marked number inside).mp marked, rfl⟩
      · rintro ⟨sector, used, rfl⟩
        obtain ⟨natural, inside⟩ := allocated.inside sector used
        refine ⟨by omega, (allocated.marked _ (by omega)).mpr ?_⟩
        rwa [Int.toNat_of_nonneg natural]
  have marked := perm.length_eq
  rw [List.length_map, ← List.countP_eq_length_filter] at marked
  have total := @List.length_eq_countP_add_countP _ (fun number => freeMap.testBit number)
    (List.range numSectors)
  rw [List.length_range] at total
  rw [BitMap.numClear, bits, ← marked]
  simp only [Bool.not_eq_true, Bool.decide_eq_false] at total
  omega

/-- The sectors that are free are those that no file takes. -/
theorem Mounted.numClear_add (mounted : Mounted fs freeMap directory) :
    freeMap.numClear + (((shelved fs.disk directory).map fun file =>
      sectorsFor file.2.length).sum) = limits.space := by
  have total := mounted.allocated.numClear_add mounted.keeps.numBits
  have system := mounted.system
  have files := length_entrySectors mounted.tight
  rw [usedSectors, List.length_append, List.length_cons, List.length_cons, files] at total
  rw [shelved, limits]
  have space : numSectors = 1024 := rfl
  dsimp only
  omega

section Apart

variable {other : DirectoryEntry} {sector : Int}

/-- The sectors of files are no data of the file system itself. -/
theorem Allocated.apart_system (allocated : Allocated disk freeMap directory)
    (member : entry ∈ directory.table) (listed : sector ∈ entrySectors disk entry) :
    sector ∉ systemSectors disk := by
  refine allocated.apart (List.mem_cons_of_mem _ (List.mem_cons_of_mem _ ?_))
  exact List.mem_flatMap.mpr ⟨entry, member, listed⟩

/-- The sectors of files are not the ones where the file system keeps its two headers. -/
theorem Allocated.apart_headers (allocated : Allocated disk freeMap directory)
    (member : entry ∈ directory.table) (listed : sector ∈ entrySectors disk entry) :
    sector ≠ freeMapSector ∧ sector ≠ directorySector := by
  obtain ⟨first, rest⟩ := List.nodup_cons.mp (List.nodup_append.mp allocated.distinct).2.1
  obtain ⟨second, -⟩ := List.nodup_cons.mp rest
  have among := List.mem_flatMap.mpr ⟨entry, member, listed⟩
  exact ⟨fun same => first (same ▸ List.mem_cons_of_mem _ among), fun same => second (same ▸ among)⟩

/-- The sectors of all files. -/
theorem Allocated.nodup_entries (allocated : Allocated disk freeMap directory) :
    (directory.table.flatMap (entrySectors disk)).Nodup := by
  obtain ⟨-, rest⟩ := List.nodup_cons.mp (List.nodup_append.mp allocated.distinct).2.1
  exact (List.nodup_cons.mp rest).2

/-- Two files share no sector. -/
theorem Allocated.alone (allocated : Allocated disk freeMap directory)
    (member : entry ∈ directory.table) (member' : other ∈ directory.table)
    (listed : sector ∈ entrySectors disk entry) (listed' : sector ∈ entrySectors disk other) :
    entry = other := by
  have pairs := (List.nodup_flatMap.mp allocated.nodup_entries).2
  have : Std.Symm (Function.onFun List.Disjoint (entrySectors disk)) :=
    ⟨fun _ _ apart _ first second => apart second first⟩
  by_contra differ
  exact pairs.forall member member' differ listed listed'

/-- The header of a file and its data lie in different sectors. -/
theorem Allocated.once (allocated : Allocated disk freeMap directory)
    (member : entry ∈ directory.table) (used : entry.inUse = true) :
    entry.sector.toInt ∉ (headerOf disk entry.sector.toInt).sectors ∧
      (headerOf disk entry.sector.toInt).sectors.Nodup := by
  have nodup := (List.nodup_flatMap.mp allocated.nodup_entries).1 entry member
  rw [entrySectors, if_pos used] at nodup
  exact List.nodup_cons.mp nodup

/-- The data of a file are among its sectors. -/
theorem mem_entrySectors_of_data (used : entry.inUse = true)
    (listed : sector ∈ (headerOf disk entry.sector.toInt).sectors) :
    sector ∈ entrySectors disk entry := by
  rw [entrySectors, if_pos used]
  exact List.mem_cons_of_mem _ listed

/-- The header of a file is among its sectors. -/
theorem mem_entrySectors_self (used : entry.inUse = true) :
    entry.sector.toInt ∈ entrySectors disk entry := by
  rw [entrySectors, if_pos used]
  exact List.mem_cons_self

variable {changed : List Int}

/-- A file stays what it is when no sector of its changes. -/
theorem Allocated.file_congr (allocated : Allocated disk freeMap directory)
    (same : SameOutside changed disk after) (member : entry ∈ directory.table)
    (used : entry.inUse = true) (apart : ∀ sector ∈ entrySectors disk entry, sector ∉ changed) :
    headerOf after entry.sector.toInt = headerOf disk entry.sector.toInt ∧
      fileOf after entry = fileOf disk entry := by
  have header := allocated.headerOf_eq same
    (mem_usedSectors_of_entry member (mem_entrySectors_self used))
    (apart _ (mem_entrySectors_self used))
  refine ⟨header, ?_⟩
  rw [fileOf, fileOf, header, stored_congr (allocated.valid entry member used)
    (fun sector listed => apart sector (mem_entrySectors_of_data used listed)) same]

/-- All files stay what they are when none of their sectors changes. -/
theorem Allocated.shelved_congr (allocated : Allocated disk freeMap directory)
    (same : SameOutside changed disk after)
    (apart : ∀ entry ∈ directory.table, ∀ sector ∈ entrySectors disk entry, sector ∉ changed) :
    shelved after directory = shelved disk directory := by
  rw [shelved, shelved, List.flatMap_def, List.flatMap_def]
  congr 1
  refine List.map_congr_left fun entry member => ?_
  by_cases used : entry.inUse = true
  · exact (allocated.file_congr same member used (apart entry member)).2
  · -- An entry that is free holds no file.
    rw [fileOf, fileOf, if_neg used, if_neg used]

end Apart

section Files

variable {file : OpenFile}

/-- `ReadAt` answers with a slice of the file. -/
theorem OpenFile.readAt_slice (valid : file.hdr.Valid) (disk : Disk) (numBytes : Int)
    (position : Nat) : file.readAt disk numBytes position =
      .ok (Files.slice (stored disk file.hdr) position numBytes.toNat) := by
  rw [OpenFile.readAt_eq valid, Files.slice, stored]
  have moved := file.transferred_eq numBytes position
  congr 1
  by_cases nothing : numBytes ≤ 0 ∨ (position : Int) ≥ file.hdr.fileLength
  · -- Either nothing was asked for, or there is nothing from here on.
    rw [if_pos nothing] at moved
    have none : file.transferred numBytes position = 0 := by omega
    rw [none, Blocks.cells, List.range_zero, List.map_nil]
    refine (List.eq_nil_of_length_eq_zero ?_).symm
    rw [List.length_take, List.length_drop, Blocks.cells_length]
    omega
  · rw [if_neg nothing] at moved
    -- What is asked for beyond the end of the file does not count.
    have reach : file.transferred numBytes position =
        min numBytes.toNat (file.hdr.fileLength.toNat - position) := by omega
    have part := @Blocks.take_drop_cells _ (contents disk file.hdr) 0 position
      (file.transferred numBytes position) file.hdr.fileLength.toNat (by omega)
    rw [Nat.zero_add] at part
    rw [← part, List.take_eq_take_iff, List.length_drop, Blocks.cells_length, reach]
    omega

/-- `WriteAt` writes over the file, as far as it reaches, and leaves the other sectors alone. -/
theorem OpenFile.writeAt_splice (valid : file.hdr.Valid) (distinct : file.hdr.sectors.Nodup)
    (disk : Disk) (garbage source : Buffer) (numBytes : Int) (position : Nat) :
    ∃ after, file.writeAt disk garbage source numBytes position = .ok (((min numBytes.toNat
        (file.hdr.fileLength.toNat - position) : Nat) : Int), after) ∧
      stored after file.hdr = Files.splice (stored disk file.hdr) position
        (Blocks.cells source 0 numBytes.toNat) ∧
      SameOutside file.hdr.sectors disk after := by
  obtain ⟨after, written, changed, unchanged⟩ :=
    OpenFile.writeAt_spec valid distinct disk garbage source numBytes position
  have moved := file.transferred_eq numBytes position
  have reach : file.transferred numBytes position =
      min numBytes.toNat (file.hdr.fileLength.toNat - position) := by
    split at moved <;> omega
  refine ⟨after, ?_, ?_, unchanged⟩
  · rw [written, reach]
  · apply List.ext_getElem?
    intro place
    by_cases inside : place < file.hdr.fileLength.toNat
    · rw [Files.getElem?_splice _ _ _ (by rwa [length_stored]), stored, stored,
        Blocks.getElem?_cells _ _ inside, Nat.zero_add, changed place (by omega), Blocks.cells_length,
        reach]
      by_cases now : position ≤ place ∧ place < position + numBytes.toNat
      · -- A byte of the request that lies inside the file is one that was written.
        rw [if_pos now, if_pos (by omega), Blocks.getElem?_cells _ _ (by omega), Nat.zero_add]
      · rw [if_neg now, if_neg (by omega), Blocks.getElem?_cells _ _ inside, Nat.zero_add]
    · rw [List.getElem?_eq_none (by rw [length_stored]; omega),
        List.getElem?_eq_none (by rw [Files.length_splice, length_stored]; omega)]

end Files

end Nachos.Filesys
