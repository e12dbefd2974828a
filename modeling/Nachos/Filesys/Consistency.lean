import Nachos.Filesys.Allocation
import Nachos.Filesys.DirectoryLaws
import Nachos.Filesys.Storage

/-! The free map, the directory and the headers on the disk always agree. -/

namespace Nachos.Filesys

/-- The sectors of a directory entry: its header and what the header lists. -/
def entrySectors (disk : Disk) (entry : DirectoryEntry) : List Int :=
  if entry.inUse then entry.sector.toInt :: (headerOf disk entry.sector.toInt).sectors else []

/-- The data sectors of the two files of the file system itself. -/
def systemSectors (disk : Disk) : List Int :=
  (headerOf disk freeMapSector).sectors ++ (headerOf disk directorySector).sectors

/-- All sectors that something on the disk refers to. -/
def usedSectors (disk : Disk) (directory : Directory) : List Int :=
  systemSectors disk ++
    ((freeMapSector : Int) :: (directorySector : Int) :: directory.table.flatMap (entrySectors disk))

/-- The free map marks what the directory and the headers refer to, and each sector has one use. -/
structure Allocated (disk : Disk) (freeMap : BitMap) (directory : Directory) : Prop where
  distinct : (usedSectors disk directory).Nodup
  marked : ∀ number : Nat, number < numSectors →
    (freeMap.testBit number = true ↔ (number : Int) ∈ usedSectors disk directory)
  inside : ∀ sector ∈ usedSectors disk directory, 0 ≤ sector ∧ sector < numSectors
  valid : ∀ entry ∈ directory.table, entry.inUse = true →
    (headerOf disk entry.sector.toInt).Valid
  names : directory.NamesDiffer

/-- What is read back from the disk, whatever the allocator left in the objects it is read into. -/
def Consistent (fs : FileSystem) : Prop :=
  fs.freeMapFile.hdr = headerOf fs.disk freeMapSector ∧
  fs.directoryFile.hdr = headerOf fs.disk directorySector ∧
  ∃ freeMap directory, Allocated fs.disk freeMap directory ∧ ∀ garbage : Garbage,
    garbage.newMap.fetchFrom fs.freeMapFile fs.disk = .ok freeMap ∧
    (Directory.new garbage.directory).fetchFrom fs.directoryFile fs.disk = .ok directory

/-- The two files of the file system hold this map and this directory. -/
structure Keeps (fs : FileSystem) (freeMap : BitMap) (directory : Directory) : Prop where
  mapHeader : fs.freeMapFile.hdr = headerOf fs.disk freeMapSector
  directoryHeader : fs.directoryFile.hdr = headerOf fs.disk directorySector
  mapValid : fs.freeMapFile.hdr.Valid
  directoryValid : fs.directoryFile.hdr.Valid
  mapLength : fs.freeMapFile.hdr.fileLength = (numSectors / bitsInWord * 4 : Nat)
  directoryLength : fs.directoryFile.hdr.fileLength = Directory.codec.size
  numBits : freeMap.numBits = numSectors
  words : freeMap.map.length = numSectors / bitsInWord
  mapStored : stored fs.disk fs.freeMapFile.hdr = freeMap.codec.encode ⟨freeMap.map, rfl⟩
  directoryStored : stored fs.disk fs.directoryFile.hdr = Directory.codec.encode directory

variable {disk after : Disk} {freeMap freeMap' : BitMap} {directory directory' : Directory}
  {fs : FileSystem}

/-- Clearing bits keeps the words of a map. -/
theorem length_foldl_clearBit (bits : List Nat) (bitmap : BitMap) :
    (bits.foldl BitMap.clearBit bitmap).map.length = bitmap.map.length := by
  induction bits generalizing bitmap with
  | nil => rfl
  | cons bit rest ih => rw [List.foldl_cons, ih, BitMap.clearBit, BitMap.modifyWord, List.length_modify]

/-- A new map of sectors has a bit for each of them. -/
theorem Garbage.numBits_newMap (garbage : Garbage) : garbage.newMap.numBits = numSectors :=
  BitMap.numBits_new _ _ _

/-- A new map of sectors has the words it needs. -/
theorem Garbage.words_newMap (garbage : Garbage) :
    garbage.newMap.map.length = numSectors / bitsInWord := by
  rw [Garbage.newMap, BitMap.new, length_foldl_clearBit, garbage.words.2]

/-- The map can be fetched. -/
theorem Keeps.fetchMap (keeps : Keeps fs freeMap directory) (garbage : Garbage) :
    garbage.newMap.fetchFrom fs.freeMapFile fs.disk = .ok freeMap := by
  refine BitMap.fetchFrom_eq keeps.mapValid ?_ ?_ ?_ keeps.mapStored
  · -- The file is as long as the words are in memory.
    rw [BitMap.size_codec, keeps.words, keeps.mapLength]
  · rw [garbage.numBits_newMap, keeps.numBits]
  · rw [garbage.words_newMap, keeps.words]

/-- The directory can be fetched. -/
theorem Keeps.fetchDirectory (keeps : Keeps fs freeMap directory) (garbage : Garbage) :
    (Directory.new garbage.directory).fetchFrom fs.directoryFile fs.disk = .ok directory :=
  Directory.fetchFrom_eq keeps.directoryValid keeps.directoryLength.symm keeps.directoryStored

/-- An allocated disk whose files hold the map and the directory is consistent. -/
theorem Keeps.consistent (keeps : Keeps fs freeMap directory)
    (allocated : Allocated fs.disk freeMap directory) : Consistent fs :=
  ⟨keeps.mapHeader, keeps.directoryHeader, freeMap, directory, allocated,
    fun garbage => ⟨keeps.fetchMap garbage, keeps.fetchDirectory garbage⟩⟩

section Change

variable {changed : List Int}

/-- A header that something refers to does not lie among the data of the file system itself. -/
theorem Allocated.apart (allocated : Allocated disk freeMap directory) {sector : Int}
    (listed : sector ∈ (freeMapSector : Int) :: (directorySector : Int) ::
      directory.table.flatMap (entrySectors disk)) : sector ∉ systemSectors disk :=
  fun member => (List.nodup_append.mp allocated.distinct).2.2 sector member sector listed rfl

/-- The header sectors of files are referred to. -/
theorem mem_used_of_entry (disk : Disk) {entry : DirectoryEntry} (member : entry ∈ directory.table)
    (used : entry.inUse = true) : entry.sector.toInt ∈ (freeMapSector : Int) ::
      (directorySector : Int) :: directory.table.flatMap (entrySectors disk) := by
  -- The header comes first among the sectors of its entry.
  refine List.mem_cons_of_mem _ (List.mem_cons_of_mem _ (List.mem_flatMap.mpr ⟨entry, member, ?_⟩))
  rw [entrySectors, if_pos used]
  exact List.mem_cons_self

/-- A header that something refers to stays when only other sectors change. -/
theorem Allocated.headerOf_eq (allocated : Allocated disk freeMap directory)
    (same : SameOutside changed disk after) {sector : Int}
    (listed : sector ∈ usedSectors disk directory) (kept : sector ∉ changed) :
    headerOf after sector = headerOf disk sector := by
  -- A sector in use has a natural number, and headers are read sector by sector.
  obtain ⟨natural, -⟩ := allocated.inside sector listed
  obtain ⟨number, rfl⟩ := Int.eq_ofNat_of_zero_le natural
  exact headerOf_congr (same number kept)

/-- The sectors of the entries stay when no header that is referred to changes. -/
theorem Allocated.entrySectors_eq (allocated : Allocated disk freeMap directory)
    (same : SameOutside changed disk after)
    (kept : ∀ entry ∈ directory.table, entry.inUse = true → entry.sector.toInt ∉ changed) :
    ∀ entry ∈ directory.table, entrySectors after entry = entrySectors disk entry := by
  intro entry member
  rw [entrySectors, entrySectors]
  split
  · -- An entry in use reads one header, which lies in a sector that did not change.
    rename_i used
    rw [allocated.headerOf_eq same (List.mem_append_right _ (mem_used_of_entry _ member used))
      (kept entry member used)]
  · -- An entry that is free has no sectors at all.
    rfl

/-- Assigning to an element of a list replaces its part of the whole. -/
theorem flatMap_modify_perm {α β : Type} {values : List α} {value : α} (change : α → α)
    (parts : α → List β) : ∀ {index : Nat}, values[index]? = some value →
      ((values.modify index change).flatMap parts ++ parts value).Perm
        (values.flatMap parts ++ parts (change value)) := by
  -- The elements before the index contribute the same to both sides.
  induction values with
  | nil => simp
  | cons first rest ih =>
    intro index found
    cases index with
    | zero =>
      -- The parts of the element change places with what follows it.
      have same : first = value := by simpa using found
      subst same
      rw [List.modify_zero_cons, List.flatMap_cons, List.flatMap_cons, List.append_assoc,
        List.append_assoc]
      refine List.perm_append_comm.trans ?_
      rw [← List.append_assoc (parts first)]
      exact List.perm_append_comm.append_right _
    | succ index =>
      -- The element lies further back.
      rw [List.modify_succ_cons, List.flatMap_cons, List.flatMap_cons, List.append_assoc,
        List.append_assoc]
      exact (ih (by simpa using found)).append_left _

/-- The sectors in use after one entry changed, next to those in use before. -/
theorem Allocated.used_perm (allocated : Allocated disk freeMap directory)
    (same : SameOutside changed disk after)
    (system : (freeMapSector : Int) ∉ changed ∧ (directorySector : Int) ∉ changed)
    (kept : ∀ entry ∈ directory.table, entry.inUse = true → entry.sector.toInt ∉ changed)
    {index : Nat} {entry : DirectoryEntry} (located : directory.table[index]? = some entry)
    (change : DirectoryEntry → DirectoryEntry) :
    (usedSectors after (directory.modify index change) ++ entrySectors disk entry).Perm
      (usedSectors disk directory ++ entrySectors after (change entry)) := by
  -- The two files of the file system keep their headers, so their sectors stay the same.
  have first : (freeMapSector : Int) ∈ usedSectors disk directory := by simp [usedSectors]
  have second : (directorySector : Int) ∈ usedSectors disk directory := by simp [usedSectors]
  have files : systemSectors after = systemSectors disk := by
    rw [systemSectors, systemSectors, allocated.headerOf_eq same first system.1,
      allocated.headerOf_eq same second system.2]
  -- So do the sectors of every entry, apart from the one that is assigned to.
  have entries := allocated.entrySectors_eq same kept
  have parts : directory.table.flatMap (entrySectors after) =
      directory.table.flatMap (entrySectors disk) := by
    rw [List.flatMap_def, List.flatMap_def, List.map_congr_left entries]
  have moved := flatMap_modify_perm change (entrySectors after) located
  rw [parts, entries entry (List.mem_of_getElem? located)] at moved
  rw [usedSectors, usedSectors, files, List.append_assoc, List.append_assoc]
  exact ((moved.cons _).cons _).append_left _

/-- An entry that is in use is allocated the sectors it lists. -/
theorem mem_usedSectors_of_entry {entry : DirectoryEntry}
    (member : entry ∈ directory.table) {sector : Int} (mine : sector ∈ entrySectors disk entry) :
    sector ∈ usedSectors disk directory :=
  List.mem_append_right _ (List.mem_cons_of_mem _ (List.mem_cons_of_mem _
    (List.mem_flatMap.mpr ⟨entry, member, mine⟩)))

/-- A new file with fresh sectors keeps everything allocated. -/
theorem Allocated.add {name : List Byte} {sector : Nat} {new : List Nat} {hdr : FileHeader}
    {system : List Int} (allocated : Allocated disk freeMap directory)
    (bits : freeMap.numBits = numSectors)
    (added : directory.add name (BitVec.ofNat 32 sector) = some directory')
    (taken : BitMap.Taken freeMap freeMap' (sector :: new)) (valid : hdr.Valid)
    (listed : hdr.sectors = new.map fun number : Nat => (number : Int))
    (data : ∀ other ∈ system, other ∈ systemSectors disk)
    (same : SameOutside ((sector : Int) :: system) disk after)
    (stored : headerOf after sector = hdr) : Allocated after freeMap' directory' := by
  obtain ⟨missing, index, entry, located, unused, rfl⟩ := Directory.add_eq_some added
  -- What the map had clear was not in use, since the map marks what is in use.
  have fresh : ∀ number ∈ sector :: new, number < numSectors ∧
      (number : Int) ∉ usedSectors disk directory := by
    intro number member
    obtain ⟨inside, free⟩ := taken.free number member
    rw [bits] at inside
    refine ⟨inside, fun used => ?_⟩
    rw [(allocated.marked number inside).mpr used] at free
    simp at free
  -- No header that is referred to lies in a sector that changed.
  have apart : ∀ other ∈ (freeMapSector : Int) :: (directorySector : Int) ::
      directory.table.flatMap (entrySectors disk), other ∉ (sector : Int) :: system := by
    intro other refers member
    rcases List.mem_cons.mp member with rfl | member
    · exact (fresh sector List.mem_cons_self).2 (List.mem_append_right _ refers)
    · exact allocated.apart refers (data other member)
  -- The new entry contributes exactly what was taken.
  have own : entrySectors after (entry.occupy name (BitVec.ofNat 32 sector)) =
      (sector :: new).map fun number : Nat => (number : Int) := by
    have named := toInt_ofNat_sector (fresh sector List.mem_cons_self).1
    simp only [entrySectors, DirectoryEntry.occupy, if_true, named, stored, listed, List.map_cons]
  have none : entrySectors disk entry = [] := by rw [entrySectors, unused]; rfl
  -- The entry it replaces was free, so nothing is lost.
  have perm := allocated.used_perm same ⟨apart _ (by simp), apart _ (by simp)⟩
    (fun other member used => apart _ (mem_used_of_entry _ member used)) located
    (·.occupy name (BitVec.ofNat 32 sector))
  rw [none, List.append_nil, own] at perm
  refine ⟨?_, ?_, ?_, ?_, allocated.names.add added⟩
  · -- No sector is used twice: what was taken was not in use before.
    refine perm.nodup_iff.mpr (List.nodup_append.mpr ⟨allocated.distinct, ?_, ?_⟩)
    · exact taken.distinct.map fun _ _ same => by omega
    · rintro other used _ member rfl
      obtain ⟨number, among, rfl⟩ := List.mem_map.mp member
      exact (fresh number among).2 used
  · -- The map marks what it marked before and what was taken.
    intro number inside
    rw [taken.bits number (by rw [bits]; exact inside), allocated.marked number inside,
      perm.mem_iff, List.mem_append]
    refine or_congr_right ⟨fun member => List.mem_map_of_mem member, ?_⟩
    intro member
    obtain ⟨other, member, same⟩ := List.mem_map.mp member
    rwa [← show other = number by omega]
  · -- All sectors lie on the disk.
    intro other used
    rcases List.mem_append.mp (perm.mem_iff.mp used) with used | member
    · exact allocated.inside other used
    · obtain ⟨number, among, rfl⟩ := List.mem_map.mp member
      have small := (fresh number among).1
      omega
  · -- Every header that is referred to is a valid one.
    intro other member used
    obtain ⟨place, found⟩ := List.getElem?_of_mem member
    rw [Directory.getElem?_modify] at found
    split at found
    · -- The new entry names the new header.
      rename_i here
      rw [← here, located, Option.map_some, Option.some.injEq] at found
      subst found
      rw [DirectoryEntry.occupy, toInt_ofNat_sector (fresh sector List.mem_cons_self).1, stored]
      exact valid
    · -- The header of an older entry did not change.
      have earlier := List.mem_of_getElem? found
      have refers := mem_used_of_entry disk earlier used
      rw [allocated.headerOf_eq same (List.mem_append_right _ refers) (apart _ refers)]
      exact allocated.valid other earlier used

/-- Removing a file and clearing its bits keeps everything else allocated. -/
theorem Allocated.clear {system : List Int} {index : Nat} {entry : DirectoryEntry}
    (allocated : Allocated disk freeMap directory) (bits : freeMap.numBits = numSectors)
    (located : directory.table[index]? = some entry)
    (given : BitMap.Given freeMap freeMap' fun number => (number : Int) ∈ entrySectors disk entry)
    (data : ∀ other ∈ system, other ∈ systemSectors disk) (same : SameOutside system disk after) :
    Allocated after freeMap' (directory.modify index fun entry => { entry with inUse := false }) := by
  -- No header that is referred to lies among the data of the file system.
  have apart : ∀ other ∈ (freeMapSector : Int) :: (directorySector : Int) ::
      directory.table.flatMap (entrySectors disk), other ∉ system :=
    fun other refers member => allocated.apart refers (data other member)
  -- What was in use is what remains in use together with the sectors of the entry.
  have perm := allocated.used_perm same ⟨apart _ (by simp), apart _ (by simp)⟩
    (fun other member used => apart _ (mem_used_of_entry _ member used)) located
    (fun entry => { entry with inUse := false })
  have gone : entrySectors after { entry with inUse := false } = [] := rfl
  rw [gone, List.append_nil] at perm
  have parts := List.nodup_append.mp (perm.nodup_iff.mpr allocated.distinct)
  have keeps : ∀ other, other ∈ usedSectors after (directory.modify index fun entry =>
      { entry with inUse := false }) → other ∈ usedSectors disk directory :=
    fun other member => perm.mem_iff.mp (List.mem_append_left _ member)
  refine ⟨parts.1, ?_, fun other member => allocated.inside other (keeps other member), ?_,
    allocated.names.clear index⟩
  · -- The map marks what remains, since the entry shared no sector with the others.
    intro number inside
    rw [given.bits number (by rw [bits]; exact inside), allocated.marked number inside]
    constructor
    · rintro ⟨used, kept⟩
      exact (List.mem_append.mp (perm.mem_iff.mpr used)).resolve_right kept
    · intro member
      exact ⟨keeps _ member, fun mine => parts.2.2 _ member _ mine rfl⟩
  · -- The headers of the other entries did not change.
    intro other member used
    obtain ⟨place, found⟩ := List.getElem?_of_mem member
    rw [Directory.getElem?_modify] at found
    split at found
    · -- The removed entry is no longer in use.
      obtain ⟨old, -, rfl⟩ := Option.map_eq_some_iff.mp found
      simp at used
    · have earlier := List.mem_of_getElem? found
      have refers := mem_used_of_entry disk earlier used
      rw [allocated.headerOf_eq same (List.mem_append_right _ refers) (apart _ refers)]
      exact allocated.valid other earlier used

end Change

end Nachos.Filesys
