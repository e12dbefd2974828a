import Nachos.Filesys.Consistency

/-! Formatting, creating and removing keep the disk consistent, and failures leave it alone. -/

namespace Nachos.Filesys

variable {disk after : Disk} {freeMap freeMap' : BitMap} {directory directory' : Directory}
  {fs : FileSystem} {changed : List Int}

/-- The file system after its two files were written. -/
theorem Keeps.written (keeps : Keeps fs freeMap directory) (same : SameOutside changed fs.disk after)
    (system : (freeMapSector : Int) ∉ changed ∧ (directorySector : Int) ∉ changed)
    (numBits : freeMap'.numBits = numSectors)
    (words : freeMap'.map.length = numSectors / bitsInWord)
    (mapStored : stored after fs.freeMapFile.hdr = freeMap'.codec.encode ⟨freeMap'.map, rfl⟩)
    (directoryStored : stored after fs.directoryFile.hdr = Directory.codec.encode directory') :
    Keeps { fs with disk := after } freeMap' directory' where
  mapHeader := keeps.mapHeader.trans (headerOf_congr (same _ system.1)).symm
  directoryHeader := keeps.directoryHeader.trans (headerOf_congr (same _ system.2)).symm
  mapValid := keeps.mapValid
  directoryValid := keeps.directoryValid
  mapLength := keeps.mapLength
  directoryLength := keeps.directoryLength
  numBits := numBits
  words := words
  mapStored := mapStored
  directoryStored := directoryStored

/-- The sectors of the two files, as the headers in memory list them. -/
theorem Keeps.systemSectors_eq (keeps : Keeps fs freeMap directory) :
    systemSectors fs.disk = fs.freeMapFile.hdr.sectors ++ fs.directoryFile.hdr.sectors := by
  rw [systemSectors, keeps.mapHeader, keeps.directoryHeader]

/-- The two files share no sector, and use none twice. -/
theorem Keeps.files_apart (keeps : Keeps fs freeMap directory)
    (allocated : Allocated fs.disk freeMap directory) :
    fs.freeMapFile.hdr.sectors.Nodup ∧ fs.directoryFile.hdr.sectors.Nodup ∧
      ∀ sector ∈ fs.freeMapFile.hdr.sectors, sector ∉ fs.directoryFile.hdr.sectors := by
  -- The sectors in use are pairwise distinct, and those of the two files come first.
  have system := (List.nodup_append.mp allocated.distinct).1
  rw [keeps.systemSectors_eq] at system
  obtain ⟨first, second, apart⟩ := List.nodup_append.mp system
  exact ⟨first, second, fun sector member member' => apart sector member sector member' rfl⟩

/-- A map of the right size fits its file. -/
theorem Keeps.size_map (keeps : Keeps fs freeMap directory)
    (words : freeMap'.map.length = numSectors / bitsInWord) :
    (freeMap'.codec.size : Int) = fs.freeMapFile.hdr.fileLength := by
  rw [BitMap.size_codec, words, keeps.mapLength]

/-- Flushing a new file writes its header and the two files of the file system. -/
theorem Keeps.flushCreated {sector : Nat} (keeps : Keeps fs freeMap directory)
    (allocated : Allocated fs.disk freeMap directory) (garbage : Garbage) (hdr : FileHeader)
    (inside : sector < numSectors) (fresh : (sector : Int) ∉ usedSectors fs.disk directory)
    (numBits : freeMap'.numBits = numSectors)
    (words : freeMap'.map.length = numSectors / bitsInWord) (directory' : Directory) :
    ∃ after, fs.flushCreated garbage hdr sector directory' freeMap' = .ok after ∧
      Keeps after freeMap' directory' ∧ headerOf after.disk sector = hdr ∧
      SameOutside ((sector : Int) ::
        (fs.directoryFile.hdr.sectors ++ fs.freeMapFile.hdr.sectors)) fs.disk after.disk := by
  obtain ⟨mapOnce, directoryOnce, apart⟩ := keeps.files_apart allocated
  -- The header goes first, then the directory, then the map.
  obtain ⟨first, wrote, header, same⟩ := hdr.writeBack_spec fs.disk inside
  obtain ⟨second, wrote', listed, same'⟩ := directory'.writeBack_spec keeps.directoryValid
    directoryOnce first garbage.directoryBuffer keeps.directoryLength.symm
  obtain ⟨third, wrote'', mapped, same''⟩ := freeMap'.writeBack_spec keeps.mapValid mapOnce second
    garbage.mapBuffer (keeps.size_map words)
  have whole := (same.trans same').trans same''
  -- A sector in use that is no data of the two files is written by none of the three.
  have outside : ∀ number : Int, number ∈ usedSectors fs.disk directory →
      number ∉ systemSectors fs.disk →
      number ∉ [(sector : Int)] ++ fs.directoryFile.hdr.sectors ++ fs.freeMapFile.hdr.sectors := by
    intro number used other
    rw [keeps.systemSectors_eq, List.mem_append, not_or] at other
    simp only [List.mem_append, List.mem_singleton, not_or]
    exact ⟨⟨fun equal => fresh (equal ▸ used), other.2⟩, other.1⟩
  have heads : (freeMapSector : Int) ∉ systemSectors fs.disk ∧
      (directorySector : Int) ∉ systemSectors fs.disk :=
    ⟨allocated.apart (by simp), allocated.apart (by simp)⟩
  refine ⟨{ fs with disk := third }, ?_, ?_, ?_, whole⟩
  · -- All three writes are accepted.
    rw [FileSystem.flushCreated, wrote, Runs.ok_bind, wrote', Runs.ok_bind, wrote'']
    rfl
  · refine keeps.written whole ⟨outside _ (by simp [usedSectors]) heads.1,
      outside _ (by simp [usedSectors]) heads.2⟩ numBits words mapped ?_
    -- Writing the map leaves the directory as it was just written.
    rw [stored_congr keeps.directoryValid (fun sector member member' => apart sector member' member)
      same'', listed]
  · -- The header survives the two later writes, which stay in the sectors of the two files.
    have data : (sector : Int) ∉ systemSectors fs.disk :=
      fun member => fresh (List.mem_append_left _ member)
    rw [keeps.systemSectors_eq, List.mem_append, not_or] at data
    rw [headerOf_congr (same'' sector data.1), headerOf_congr (same' sector data.2), header]

/-- A new file finds its name, an entry of the directory and enough sectors free. -/
def HasRoom (freeMap : BitMap) (directory : Directory) (name : List Byte)
    (initialSize : BitVec 32) : Prop :=
  directory.findIndex name = none ∧ (∃ entry ∈ directory.table, entry.inUse = false) ∧
    1 + (divRoundUp initialSize.toInt sectorSize).toNat ≤ freeMap.numClear

/-- What a successful `Create` does: an entry is filled in, and names a header in a fresh sector. -/
structure Created (fs after : FileSystem) (freeMap freeMap' : BitMap)
    (directory directory' : Directory) (name : List Byte) (initialSize : BitVec 32) (place : Nat)
    (entry : DirectoryEntry) (sector : Nat) (new : List Nat) : Prop where
  room : HasRoom freeMap directory name initialSize
  located : directory.table[place]? = some entry
  unused : entry.inUse = false
  entered : directory' = directory.modify place (·.occupy name (BitVec.ofNat 32 sector))
  keeps : Keeps after freeMap' directory'
  allocated : Allocated after.disk freeMap' directory'
  taken : BitMap.Taken freeMap freeMap' (sector :: new)
  inside : sector < numSectors
  fresh : ∀ number ∈ sector :: new, (number : Int) ∉ usedSectors fs.disk directory
  length : new.length = (divRoundUp initialSize.toInt sectorSize).toNat
  numBytes : (headerOf after.disk sector).numBytes = initialSize
  sectors : (headerOf after.disk sector).sectors = new.map fun number : Nat => (number : Int)
  same : SameOutside ((sector : Int) :: systemSectors fs.disk) fs.disk after.disk

/-- A sector whose bit is clear is used by nothing. -/
theorem Allocated.not_used (allocated : Allocated disk freeMap directory) {number : Nat}
    (inside : number < numSectors) (free : freeMap.testBit number = false) :
    (number : Int) ∉ usedSectors disk directory := by
  intro used
  rw [(allocated.marked number inside).mpr used] at free
  simp at free

/-- `Create` succeeds just when there is room, and else leaves the file system as it is. -/
theorem create_exact (keeps : Keeps fs freeMap directory)
    (allocated : Allocated fs.disk freeMap directory) (garbage : Garbage) (name : List Byte)
    {initialSize : BitVec 32} (small : initialSize.toInt ≤ maxFileSize) :
    (fs.create garbage name initialSize = .ok (false, fs) ∧
      ¬ HasRoom freeMap directory name initialSize) ∨
      ∃ after freeMap' directory' place entry sector new,
        fs.create garbage name initialSize = .ok (true, after) ∧
        Created fs after freeMap freeMap' directory directory' name initialSize place entry sector
          new := by
  rw [FileSystem.create, keeps.fetchDirectory, Runs.ok_bind]
  split
  · -- The name is already in the directory.
    rename_i present
    refine .inl ⟨rfl, fun room => present ?_⟩
    simp [Directory.find, room.1]
  · rw [keeps.fetchMap, Runs.ok_bind]
    split
    · -- The map has no clear bit left for the header.
      rename_i full
      refine .inl ⟨rfl, fun room => ?_⟩
      obtain ⟨_, _, found, _⟩ := BitMap.exists_find (show 0 < freeMap.numClear by
        have := room.2.2
        omega)
      rw [full] at found
      cases found
    · rename_i sector middle found
      split
      · -- The directory has no free entry.
        rename_i crowded
        refine .inl ⟨rfl, fun room => ?_⟩
        obtain ⟨missing, ⟨entry, member, unused⟩, -⟩ := room
        rw [Directory.add, missing] at crowded
        have all := List.findIdx?_eq_none_iff.mp (Option.map_eq_none_iff.mp crowded) entry member
        simp [unused] at all
      · rename_i directory' added
        have single := BitMap.find_taken found
        have bits : middle.numBits = numSectors := single.numBits.trans keeps.numBits
        -- The header takes one of the clear bits.
        have counted : middle.numClear + 1 = freeMap.numClear := by
          obtain ⟨inside, free, rfl, -⟩ := BitMap.find_spec found
          exact (BitMap.numClear_markBit inside free).symm
        by_cases few : (middle.numClear : Int) < divRoundUp initialSize.toInt sectorSize
        · -- Not enough space: the copies in memory are dropped.
          obtain ⟨header, left, refused⟩ := garbage.header.allocate_refused few
          rw [refused]
          refine .inl ⟨rfl, fun room => ?_⟩
          have := room.2.2
          omega
        · -- Space was found: the header's sector and the data sectors are all newly marked.
          obtain ⟨new, header, freeMap', done, taken, length, -, bytes, listed, valid⟩ :=
            garbage.header.allocate_taken bits small (by omega)
          have all := single.append taken
          have clear : ∀ number ∈ sector :: new, number < numSectors ∧
              freeMap.testBit number = false := by
            intro number member
            rw [← keeps.numBits]
            exact all.free number member
          obtain ⟨inside, free⟩ := clear sector List.mem_cons_self
          have fresh : ∀ number ∈ sector :: new, (number : Int) ∉ usedSectors fs.disk directory :=
            fun number member => allocated.not_used (clear number member).1 (clear number member).2
          obtain ⟨after, flushed, keeps', header', same⟩ := keeps.flushCreated allocated garbage
            header inside (fresh sector List.mem_cons_self) (all.numBits.trans keeps.numBits)
            (all.words.trans keeps.words) directory'
          obtain ⟨missing, place, entry, located, unused, entered⟩ := Directory.add_eq_some added
          have apart : SameOutside ((sector : Int) :: systemSectors fs.disk) fs.disk after.disk := by
            intro number outside
            apply same number
            intro member
            apply outside
            rw [keeps.systemSectors_eq]
            refine (List.mem_cons.mp member).elim (fun here => here ▸ List.mem_cons_self) ?_
            exact fun among =>
              List.mem_cons_of_mem _ (List.mem_append.mpr (List.mem_append.mp among).symm)
          refine .inr ⟨after, freeMap', directory', place, entry, sector, new, ?_, ?_⟩
          · rw [done]
            simp only [Runs.ok_bind, if_true, flushed]
            rfl
          · exact {
              room := ⟨missing, ⟨entry, List.mem_of_getElem? located, unused⟩, by omega⟩
              located, unused, entered, inside, fresh, length
              keeps := keeps'
              allocated := allocated.add keeps.numBits added all valid listed (fun _ => id) apart
                header'
              taken := all
              numBytes := by rw [header', bytes]
              sectors := by rw [header', listed]
              same := apart }

/-- `Create` answers, and what it does keeps the disk consistent. -/
theorem create_spec (keeps : Keeps fs freeMap directory)
    (allocated : Allocated fs.disk freeMap directory) (garbage : Garbage) (name : List Byte)
    {initialSize : BitVec 32} (small : initialSize.toInt ≤ maxFileSize) :
    fs.create garbage name initialSize = .ok (false, fs) ∨
      ∃ after freeMap' directory', fs.create garbage name initialSize = .ok (true, after) ∧
        Keeps after freeMap' directory' ∧ Allocated after.disk freeMap' directory' := by
  rcases create_exact keeps allocated garbage name small with ⟨failed, -⟩ | done
  · exact .inl failed
  · obtain ⟨after, freeMap', directory', _, _, _, _, done, created⟩ := done
    exact .inr ⟨after, freeMap', directory', done, created.keeps, created.allocated⟩

/-- What a successful `Remove` does: an entry is given up, and all its sectors with it. -/
structure Removed (fs after : FileSystem) (freeMap freeMap' : BitMap) (directory : Directory)
    (name : List Byte) (place : Nat) (entry : DirectoryEntry) : Prop where
  found : directory.findIndex name = some place
  located : directory.table[place]? = some entry
  used : entry.inUse = true
  keeps : Keeps after freeMap' (directory.modify place fun entry => { entry with inUse := false })
  allocated : Allocated after.disk freeMap'
    (directory.modify place fun entry => { entry with inUse := false })
  given : BitMap.Given freeMap freeMap' fun number => (number : Int) ∈ entrySectors fs.disk entry
  same : SameOutside (systemSectors fs.disk) fs.disk after.disk

/-- `Remove` succeeds just when the name is there, and else leaves the file system as it is. -/
theorem remove_exact (keeps : Keeps fs freeMap directory)
    (allocated : Allocated fs.disk freeMap directory) (garbage : Garbage) (name : List Byte) :
    (fs.remove garbage name = .ok (false, fs) ∧ directory.findIndex name = none) ∨
      ∃ after freeMap' place entry, fs.remove garbage name = .ok (true, after) ∧
        Removed fs after freeMap freeMap' directory name place entry := by
  rw [FileSystem.remove, keeps.fetchDirectory, Runs.ok_bind]
  cases found : directory.findIndex name with
  -- A name that is not there is refused before anything is read.
  | none =>
    have missing : directory.find name = -1 := by simp [Directory.find, found]
    exact .inl ⟨if_pos missing, rfl⟩
  | some index =>
    right
    obtain ⟨entry, located, used, agrees⟩ := Directory.findIndex_eq_some found
    have member := List.mem_of_getElem? located
    have mine : entrySectors fs.disk entry =
        entry.sector.toInt :: (headerOf fs.disk entry.sector.toInt).sectors := by
      rw [entrySectors, if_pos used]
    have listed : ∀ sector ∈ entrySectors fs.disk entry, sector ∈ usedSectors fs.disk directory :=
      fun sector => mem_usedSectors_of_entry member
    -- The header of the file lists sectors of its own, and all of them are marked.
    have once : (entrySectors fs.disk entry).Nodup := by
      obtain ⟨-, -, rest⟩ := List.nodup_cons.mp (List.nodup_append.mp allocated.distinct).2.1
        |>.imp_right fun tail => List.nodup_cons.mp tail
      exact (List.nodup_flatMap.mp rest).1 entry member
    have valid := allocated.valid entry member used
    rw [Directory.find_eq found located]
    obtain ⟨natural, inside⟩ := allocated.inside _ (listed _ (by rw [mine]; exact List.mem_cons_self))
    generalize entry.sector.toInt = sector at *
    obtain ⟨number, rfl⟩ := Int.eq_ofNat_of_zero_le natural
    rw [mine] at once
    obtain ⟨other, once⟩ := List.nodup_cons.mp once
    -- `Deallocate` asserts that each bit it clears was set.
    have marked : ∀ data : Nat, (data : Int) ∈ (headerOf fs.disk number).sectors →
        freeMap.testBit data = true := by
      intro data member'
      have bound := (valid.inside _ member').2
      exact (allocated.marked data (by omega)).mpr
        (listed _ (by rw [mine]; exact List.mem_cons_of_mem _ member'))
    obtain ⟨middle, released, given⟩ := FileHeader.deallocate_given valid once keeps.numBits marked
    have bits : middle.numBits = numSectors := given.numBits.trans keeps.numBits
    obtain ⟨cleared, given'⟩ := @BitMap.clear_given middle number (by omega)
    -- The bits cleared are those of the header and of its data.
    have all : BitMap.Given freeMap (middle.clearBit number) fun data =>
        (data : Int) ∈ entrySectors fs.disk entry := by
      have both := given.trans given'
      refine ⟨?_, both.numBits, both.words⟩
      intro data small
      rw [both.bits data small, mine, List.mem_cons]
      refine and_congr_right fun _ => not_congr ?_
      rw [or_comm, Int.natCast_inj]
    have words : (middle.clearBit number).map.length = numSectors / bitsInWord :=
      all.words.trans keeps.words
    -- The map is written first, and the directory does not touch it.
    obtain ⟨mapOnce, directoryOnce, apart⟩ := keeps.files_apart allocated
    obtain ⟨first, wrote, mapped, same⟩ := (middle.clearBit number).writeBack_spec keeps.mapValid
      mapOnce fs.disk garbage.mapBuffer (keeps.size_map words)
    obtain ⟨second, wrote', stored', same'⟩ := (directory.modify index fun entry =>
      { entry with inUse := false }).writeBack_spec keeps.directoryValid directoryOnce first
      garbage.directoryBuffer keeps.directoryLength.symm
    have whole := same.trans same'
    rw [← keeps.systemSectors_eq] at whole
    refine ⟨{ fs with disk := second }, _, index, entry, ?_, found, located, used, keeps.written
      whole ⟨allocated.apart (by simp), allocated.apart (by simp)⟩ (all.numBits.trans keeps.numBits)
      words ?_ stored', allocated.clear keeps.numBits located all (fun _ member => member) whole,
      all, whole⟩
    · -- `Remove` runs through to its end.
      have dropped : (directory.remove name).getD directory =
          directory.modify index fun entry => { entry with inUse := false } := by
        simp [Directory.remove, found]
      rw [if_neg (by omega), FileHeader.fetchFrom_eq _ (by omega), Runs.ok_bind, keeps.fetchMap,
        Runs.ok_bind, released, Runs.ok_bind, cleared, Runs.ok_bind, dropped, wrote, Runs.ok_bind,
        wrote']
      rfl
    · rw [stored_congr keeps.mapValid apart same', mapped]

/-- `Remove` answers, gives the sectors of the file back, and keeps the disk consistent. -/
theorem remove_spec (keeps : Keeps fs freeMap directory)
    (allocated : Allocated fs.disk freeMap directory) (garbage : Garbage) (name : List Byte) :
    fs.remove garbage name = .ok (false, fs) ∨
      ∃ after freeMap' directory', fs.remove garbage name = .ok (true, after) ∧
        (Keeps after freeMap' directory' ∧ Allocated after.disk freeMap' directory') ∧
        ∃ entry ∈ directory.table, entry.isFor name = true ∧
          BitMap.Given freeMap freeMap' fun number => (number : Int) ∈ entrySectors fs.disk entry := by
  rcases remove_exact keeps allocated garbage name with ⟨failed, -⟩ | done
  · exact .inl failed
  · obtain ⟨after, freeMap', place, entry, done, removed⟩ := done
    -- The entry was found by comparing its name.
    obtain ⟨other, located, used, agrees⟩ := Directory.findIndex_eq_some removed.found
    rw [removed.located, Option.some.injEq] at located
    subst located
    refine .inr ⟨after, freeMap', _, done, ⟨removed.keeps, removed.allocated⟩, entry,
      List.mem_of_getElem? removed.located, ?_, removed.given⟩
    rw [DirectoryEntry.isFor, used, agrees]
    rfl

/-- A map of sectors without marks has all its bits clear. -/
theorem Garbage.testBit_newMap (garbage : Garbage) {number : Nat} (inside : number < numSectors) :
    garbage.newMap.testBit number = false := BitMap.testBit_new _ inside

/-- All bits of a new map count as clear. -/
theorem Garbage.numClear_newMap (garbage : Garbage) : garbage.newMap.numClear = numSectors := by
  rw [BitMap.numClear, garbage.numBits_newMap, List.countP_eq_length.mpr, List.length_range]
  intro number member
  simp [garbage.testBit_newMap (List.mem_range.mp member)]

/-- Marking a sector. -/
theorem mark_eq {number : Nat} (bits : freeMap.numBits = numSectors) (inside : number < numSectors) :
    freeMap.mark number = .ok (freeMap.markBit number) := by
  simp [BitMap.mark, BitMap.inRange, bits, inside]

/-- A file that fits onto the disk can be allocated while formatting. -/
theorem mustAllocate_taken (header : FileHeader) {fileSize : BitVec 32}
    (bits : freeMap.numBits = numSectors) (small : fileSize.toInt ≤ maxFileSize)
    (enough : divRoundUp fileSize.toInt sectorSize ≤ freeMap.numClear) :
    ∃ new header' after, FileSystem.mustAllocate header freeMap fileSize = .ok (header', after) ∧
      BitMap.Taken freeMap after new ∧ new.length = (divRoundUp fileSize.toInt sectorSize).toNat ∧
      header'.fileLength = fileSize.toInt ∧
      after.numClear + (divRoundUp fileSize.toInt sectorSize).toNat = freeMap.numClear ∧
      header'.sectors = new.map (fun number : Nat => (number : Int)) ∧ header'.Valid := by
  obtain ⟨new, header', after, done, taken, length, left, bytes, listed, valid⟩ :=
    header.allocate_taken bits small enough
  refine ⟨new, header', after, ?_, taken, length, ?_, by omega, listed, valid⟩
  · rw [FileSystem.mustAllocate, done]
    rfl
  · rw [FileHeader.fileLength, bytes]

/-- What formatting does in memory, before it writes anything. -/
theorem format_takes (garbage : Garbage) :
    ∃ new new' mapHdr dirHdr middle freeMap,
      FileSystem.mustAllocate garbage.mapHeader
        ((garbage.newMap.markBit freeMapSector).markBit directorySector) freeMapFileSize =
        .ok (mapHdr, middle) ∧
      FileSystem.mustAllocate garbage.header middle directoryFileSize = .ok (dirHdr, freeMap) ∧
      BitMap.Taken garbage.newMap freeMap
        ([freeMapSector] ++ [directorySector] ++ new ++ new') ∧ new.length = 1 ∧ new'.length = 2 ∧
      mapHdr.fileLength = freeMapFileSize.toInt ∧ dirHdr.fileLength = directoryFileSize.toInt ∧
      mapHdr.sectors = new.map (fun number : Nat => (number : Int)) ∧
      dirHdr.sectors = new'.map (fun number : Nat => (number : Int)) ∧
      mapHdr.Valid ∧ dirHdr.Valid := by
  have bits := garbage.numBits_newMap
  -- The sectors of the two headers are marked by number, not searched for.
  have one : BitMap.Taken garbage.newMap (garbage.newMap.markBit freeMapSector) [freeMapSector] :=
    .single (by rw [bits]; decide) (garbage.testBit_newMap (by decide))
  have free : (garbage.newMap.markBit freeMapSector).testBit directorySector = false := by
    rw [BitMap.testBit_markBit _ _ _ (by rw [bits]; decide), garbage.testBit_newMap (by decide)]
    rfl
  have two := one.append (.single (by rw [BitMap.numBits_markBit, bits]; decide) free)
  -- Two of the bits are marked, and the two files need three more.
  have clear := garbage.numClear_newMap
  rw [BitMap.numClear_markBit (by rw [bits]; decide) (garbage.testBit_newMap
    (show freeMapSector < numSectors by decide)), BitMap.numClear_markBit (by
    rw [BitMap.numBits_markBit, bits]; decide) free] at clear
  have total : numSectors = 1024 := rfl
  -- The map needs one sector, the directory two.
  have first : divRoundUp freeMapFileSize.toInt sectorSize = 1 := by decide
  have second : divRoundUp directoryFileSize.toInt sectorSize = 2 := by decide
  obtain ⟨new, mapHdr, middle, done, taken, count, length, left, listed, valid⟩ :=
    mustAllocate_taken garbage.mapHeader (two.numBits.trans bits)
      (show freeMapFileSize.toInt ≤ maxFileSize by decide) (by omega)
  have three := two.append taken
  obtain ⟨new', dirHdr, freeMap, done', taken', count', length', -, listed', valid'⟩ :=
    mustAllocate_taken garbage.header (three.numBits.trans bits)
      (show directoryFileSize.toInt ≤ maxFileSize by decide) (by omega)
  exact ⟨new, new', mapHdr, dirHdr, middle, freeMap, done, done', three.append taken', by omega,
    by omega, length, length', listed, listed', valid, valid'⟩

/-- An empty directory refers to nothing but what the file system itself uses. -/
theorem usedSectors_new (disk : Disk) (garbage : Directory) :
    usedSectors disk (Directory.new garbage) =
      systemSectors disk ++ [(freeMapSector : Int), (directorySector : Int)] := by
  have none : (Directory.new garbage).table.flatMap (entrySectors disk) = [] := by
    rw [List.flatMap_eq_nil_iff]
    intro entry member
    obtain ⟨old, -, rfl⟩ := List.mem_map.mp member
    rfl
  rw [usedSectors, none]

/-- Formatting succeeds on every disk, takes five sectors, and leaves an empty directory. -/
theorem format_exact (disk : Disk) (garbage : Garbage) :
    ∃ fs freeMap directory, FileSystem.format disk garbage = .ok fs ∧
      Keeps fs freeMap directory ∧ Allocated fs.disk freeMap directory ∧
      (systemSectors fs.disk).length = 3 ∧ ∀ entry ∈ directory.table, entry.inUse = false := by
  have bits := garbage.numBits_newMap
  obtain ⟨new, new', mapHdr, dirHdr, middle, freeMap, done, done', taken, count, count', length,
    length', listed, listed', valid, valid'⟩ := format_takes garbage
  have once := taken.distinct
  obtain ⟨first, wrote, header, same⟩ := mapHdr.writeBack_spec disk
    (show freeMapSector < numSectors by decide)
  obtain ⟨second, wrote', header', same'⟩ := dirHdr.writeBack_spec first
    (show directorySector < numSectors by decide)
  -- Writing the second header leaves the first in place.
  have kept : headerOf second freeMapSector = mapHdr := by
    rw [headerOf_congr (same' freeMapSector (by decide)), header]
  have words : freeMap.map.length = numSectors / bitsInWord :=
    taken.words.trans garbage.words_newMap
  -- The sectors in use are the ones that were taken, in another order.
  have perm : (mapHdr.sectors ++ dirHdr.sectors ++ [(freeMapSector : Int), (directorySector : Int)]).Perm
      (([freeMapSector] ++ [directorySector] ++ new ++ new').map fun number : Nat => (number : Int)) := by
    have parts : ([freeMapSector] ++ [directorySector] ++ new ++ new').map
        (fun number : Nat => (number : Int)) = [(freeMapSector : Int), (directorySector : Int)] ++
          (mapHdr.sectors ++ dirHdr.sectors) := by
      rw [listed, listed', List.append_assoc _ new, List.map_append, List.map_append,
        List.map_append]
      rfl
    rw [parts]
    exact List.perm_append_comm
  have distinct := perm.nodup_iff.mpr (taken.distinct.map fun _ _ same => Int.ofNat_inj.mp same)
  obtain ⟨files, -, heads⟩ := List.nodup_append.mp distinct
  obtain ⟨mapOnce, directoryOnce, apart⟩ := List.nodup_append.mp files
  -- Both contents go through the headers just written.
  obtain ⟨third, wrote₃, mapped, same₃⟩ := @BitMap.writeBack_spec ⟨mapHdr, 0⟩ freeMap valid mapOnce
    second garbage.mapBuffer (by
      rw [BitMap.size_codec, words]
      exact length.symm)
  obtain ⟨fourth, wrote₄, stored₄, same₄⟩ := @Directory.writeBack_spec ⟨dirHdr, 0⟩
    (Directory.new garbage.directory) valid' directoryOnce third garbage.directoryBuffer
    length'.symm
  -- The data of the two files lies away from both headers.
  have outside : ∀ sector ∈ [(freeMapSector : Int), (directorySector : Int)],
      sector ∉ mapHdr.sectors ++ dirHdr.sectors :=
    fun sector member member' => heads sector member' sector member rfl
  have whole := same₃.trans same₄
  have mapHeader : headerOf fourth freeMapSector = mapHdr := by
    rw [headerOf_congr (whole _ (outside _ (by simp))), kept]
  have directoryHeader : headerOf fourth directorySector = dirHdr := by
    rw [headerOf_congr (whole _ (outside _ (by simp))), header']
  -- No entry of the new directory is in use, so the two files account for everything.
  have used : usedSectors fourth (Directory.new garbage.directory) =
      mapHdr.sectors ++ dirHdr.sectors ++ [(freeMapSector : Int), (directorySector : Int)] := by
    rw [usedSectors_new, systemSectors, mapHeader, directoryHeader]
  have idle : ∀ entry ∈ (Directory.new garbage.directory).table, entry.inUse = false := by
    intro entry member
    obtain ⟨old, -, rfl⟩ := List.mem_map.mp member
    rfl
  refine ⟨⟨fourth, ⟨mapHdr, 0⟩, ⟨dirHdr, 0⟩⟩, freeMap, Directory.new garbage.directory, ?_, ?_, ?_,
    ?_, idle⟩
  · -- The constructor runs through, one step after the other.
    have opened : OpenFile.new second freeMapSector = .ok ⟨mapHdr, 0⟩ := by
      rw [OpenFile.new, FileHeader.fetchFrom_eq _ (by decide), kept]
      rfl
    have opened' : OpenFile.new second directorySector = .ok ⟨dirHdr, 0⟩ := by
      rw [OpenFile.new, FileHeader.fetchFrom_eq _ (by decide), header']
      rfl
    have marked := mark_eq bits (show freeMapSector < numSectors by decide)
    have marked' := mark_eq ((BitMap.numBits_markBit garbage.newMap freeMapSector).trans bits)
      (show directorySector < numSectors by decide)
    rw [FileSystem.format, marked, Runs.ok_bind, marked', Runs.ok_bind, done, Runs.ok_bind]
    dsimp only
    rw [done', Runs.ok_bind]
    dsimp only
    rw [wrote, Runs.ok_bind, wrote', Runs.ok_bind, opened, Runs.ok_bind, opened', Runs.ok_bind,
      wrote₃, Runs.ok_bind, wrote₄, Runs.ok_bind]
    rfl
  · -- The files on the disk hold the map and the directory in memory.
    exact ⟨mapHeader.symm, directoryHeader.symm, valid, valid', length, length',
      taken.numBits.trans bits, words, by
        rw [stored_congr valid (fun sector member member' => apart sector member sector member' rfl)
          same₄, mapped], stored₄⟩
  · -- The map marks what the directory and the headers list.
    refine ⟨by rw [used]; exact distinct, ?_, ?_, ?_, ?_⟩
    · intro number inside
      rw [taken.bits number (by rw [bits]; exact inside), garbage.testBit_newMap inside, used,
        perm.mem_iff, List.mem_map]
      constructor
      · intro marked
        exact ⟨number, marked.resolve_left (by decide), rfl⟩
      · rintro ⟨other, member, same⟩
        exact .inr (Int.ofNat_inj.mp same ▸ member)
    · intro sector member
      rw [used, perm.mem_iff, List.mem_map] at member
      obtain ⟨number, member, rfl⟩ := member
      have small := (taken.free number member).1
      rw [bits] at small
      omega
    · intro entry member inUse
      simp [idle entry member] at inUse
    · intro index other entry entry' found _ inUse
      simp [idle entry (List.mem_of_getElem? found)] at inUse
  · -- The map takes one sector, the directory two.
    rw [systemSectors, mapHeader, directoryHeader, listed, listed', List.length_append,
      List.length_map, List.length_map, count, count']

/-- Formatting succeeds on every disk. -/
theorem format_spec (disk : Disk) (garbage : Garbage) :
    ∃ fs freeMap directory, FileSystem.format disk garbage = .ok fs ∧
      Keeps fs freeMap directory ∧ Allocated fs.disk freeMap directory := by
  obtain ⟨fs, freeMap, directory, done, keeps, allocated, -⟩ := format_exact disk garbage
  exact ⟨fs, freeMap, directory, done, keeps, allocated⟩

/-- The files of the file system keep a map and a directory that agree with the whole disk. -/
def Sound (fs : FileSystem) : Prop :=
  ∃ freeMap directory, Keeps fs freeMap directory ∧ Allocated fs.disk freeMap directory

/-- Every request is answered, keeps the disk sound, and leaves it alone when the answer is no. -/
theorem perform_spec {action : Action} (sound : Sound fs) (allowed : SizeAllowed fs action) :
    ∃ success after, perform fs action = .ok (success, after) ∧ Sound after ∧
      (success = false → after = fs) := by
  obtain ⟨freeMap, directory, keeps, allocated⟩ := sound
  cases action with
  -- A refused request returns the file system it was given.
  | create garbage name initialSize =>
    rcases create_spec keeps allocated garbage name allowed with failed | ⟨after, _, _, done, rest⟩
    · exact ⟨false, fs, failed, ⟨freeMap, directory, keeps, allocated⟩, fun _ => rfl⟩
    · exact ⟨true, after, done, ⟨_, _, rest⟩, by simp⟩
  | remove garbage name =>
    rcases remove_spec keeps allocated garbage name with failed | ⟨after, _, _, done, rest, -⟩
    · exact ⟨false, fs, failed, ⟨freeMap, directory, keeps, allocated⟩, fun _ => rfl⟩
    · exact ⟨true, after, done, ⟨_, _, rest⟩, by simp⟩

/-- The disk is sound after every run that begins with formatting. -/
theorem sound_of_reachable (reached : Runs.Reachable step Formatted SizeAllowed fs) : Sound fs := by
  refine reached.invariant Sound ?_ ?_
  · -- Formatting starts the run.
    rintro fs ⟨disk, garbage, formatted⟩
    obtain ⟨fs', freeMap, directory, formatted', rest⟩ := format_spec disk garbage
    rw [formatted, Except.ok.injEq] at formatted'
    exact formatted' ▸ ⟨freeMap, directory, rest⟩
  · -- Each request keeps the disk sound.
    intro fs action after sound allowed done
    obtain ⟨success, after', performed, sound', -⟩ := perform_spec sound allowed
    rw [step, performed, Runs.ok_bind] at done
    cases done
    exact sound'

/--
After formatting and any run of requests, the free map marks exactly the sectors in use.

No request makes an `ASSERT` fail, and one that is refused leaves the disk as it was.
-/
theorem disk_consistent (reached : Runs.Reachable step Formatted SizeAllowed fs) :
    Consistent fs ∧ ∀ action, SizeAllowed fs action →
      ∃ success after, perform fs action = .ok (success, after) ∧
        (success = false → after.disk = fs.disk) := by
  have sound := sound_of_reachable reached
  obtain ⟨freeMap, directory, keeps, allocated⟩ := sound
  refine ⟨keeps.consistent allocated, ?_⟩
  intro action allowed
  obtain ⟨success, after, done, -, same⟩ := perform_spec ⟨freeMap, directory, keeps, allocated⟩ allowed
  exact ⟨success, after, done, fun failed => by rw [same failed]⟩

/-- A header as the allocator may leave it. -/
def usedHeader : FileHeader := ⟨77, 66, List.replicate numDirect 5, by rw [List.length_replicate]⟩

/-- A directory entry as the allocator may leave it. -/
def usedEntry : DirectoryEntry where
  inUse := true
  gap := ⟨[1, 2, 3], rfl⟩
  sector := 7
  name := ⟨List.replicate (fileNameMaxLen + 1) 9, by rw [List.length_replicate]⟩
  rest := ⟨[4, 5], rfl⟩

/-- Memory in which nothing happens to be zero. -/
def leftovers : Garbage where
  directory := ⟨List.replicate numDirEntries usedEntry, by rw [List.length_replicate]⟩
  words := ⟨List.replicate (numSectors / bitsInWord) (-1#32), by rw [List.length_replicate]⟩
  header := usedHeader
  mapHeader := usedHeader
  directoryBuffer := fun _ => 3
  mapBuffer := fun _ => 4

/-- A file is created on a formatted disk, and a second one of that name is refused. -/
theorem disk_consistent_createTwice :
    ∃ fs after, FileSystem.format (fun _ => 255) leftovers = .ok fs ∧
      fs.create leftovers [65] 200 = .ok (true, after) ∧ Consistent after ∧
      ∃ last, after.create leftovers [65] 200 = .ok (false, last) ∧ last.disk = after.disk := by
  -- The three answers are computed, the rest follows from the theorem.
  have answers : (match FileSystem.format (fun _ => 255) leftovers with
    | .error _ => false
    | .ok fs =>
      match fs.create leftovers [65] 200 with
      | .ok (true, after) =>
        match after.create leftovers [65] 200 with
        | .ok (false, _) => true
        | _ => false
      | _ => false) = true := by decide +kernel
  split at answers
  · simp at answers
  · rename_i fs formatted
    split at answers
    · rename_i after created
      split at answers
      · rename_i last refused
        have stepped : step fs (.create leftovers [65] 200) = .ok after := by
          rw [step, perform, created]
          rfl
        obtain ⟨consistent, answered⟩ := disk_consistent
          (.next (.start ⟨_, _, formatted⟩) (show SizeAllowed fs (.create leftovers [65] 200) by
            simp only [SizeAllowed]; decide) stepped)
        obtain ⟨success, final, done, same⟩ := answered (.create leftovers [65] 200)
          (by simp only [SizeAllowed]; decide)
        rw [perform, refused, Except.ok.injEq, Prod.mk.injEq] at done
        obtain ⟨rfl, rfl⟩ := done
        exact ⟨fs, after, formatted, created, consistent, last, refused, same rfl⟩
      · simp at answers
    · simp at answers

end Nachos.Filesys
