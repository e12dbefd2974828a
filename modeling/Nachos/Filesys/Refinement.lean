import Nachos.Filesys.Shelf

/-! The file system as a program sees it: a store of files, and handles with a position. -/

namespace Nachos.Filesys

variable {disk after : Disk} {freeMap freeMap' : BitMap} {directory directory' : Directory}
  {fs : FileSystem} {name : List Byte} {entry : DirectoryEntry}

namespace Mounted

/-- Writing data of one file leaves everything else in place. -/
theorem wrote (mounted : Mounted fs freeMap directory) (member : entry ∈ directory.table)
    (used : entry.inUse = true)
    (same : SameOutside (headerOf fs.disk entry.sector.toInt).sectors fs.disk after) :
    Mounted { fs with disk := after } freeMap directory ∧
      (∀ other ∈ directory.table, other.inUse = true →
        headerOf after other.sector.toInt = headerOf fs.disk other.sector.toInt) ∧
      ∀ other ∈ directory.table, other ≠ entry → fileOf after other = fileOf fs.disk other := by
  have keeps := mounted.keeps
  have allocated := mounted.allocated
  -- The data of the file is neither data nor a header of the file system itself.
  have system : ∀ sector ∈ systemSectors fs.disk,
      sector ∉ (headerOf fs.disk entry.sector.toInt).sectors :=
    fun sector member' listed => allocated.apart_system member
      (mem_entrySectors_of_data used listed) member'
  have heads : (freeMapSector : Int) ∉ (headerOf fs.disk entry.sector.toInt).sectors ∧
      (directorySector : Int) ∉ (headerOf fs.disk entry.sector.toInt).sectors :=
    ⟨fun listed => (allocated.apart_headers member (mem_entrySectors_of_data used listed)).1 rfl,
      fun listed => (allocated.apart_headers member (mem_entrySectors_of_data used listed)).2 rfl⟩
  -- No header is among the data, not even that of the file.
  have headers : ∀ other ∈ directory.table, other.inUse = true →
      headerOf after other.sector.toInt = headerOf fs.disk other.sector.toInt := by
    intro other member' used'
    refine allocated.headerOf_eq same (mem_usedSectors_of_entry member' (mem_entrySectors_self used'))
      fun listed => ?_
    have equal := allocated.alone member' member (mem_entrySectors_self used')
      (mem_entrySectors_of_data used listed)
    subst equal
    exact (allocated.once member' used').1 listed
  have files : systemSectors after = systemSectors fs.disk := by
    rw [systemSectors, systemSectors, headerOf_congr (same _ heads.1),
      headerOf_congr (same _ heads.2)]
  have entries : directory.table.flatMap (entrySectors after) =
      directory.table.flatMap (entrySectors fs.disk) := by
    rw [List.flatMap_def, List.flatMap_def]
    congr 1
    refine List.map_congr_left fun other member' => ?_
    by_cases used' : other.inUse = true
    · rw [entrySectors, entrySectors, headers other member' used']
    · rw [entrySectors, entrySectors, if_neg used', if_neg used']
  have sectors : usedSectors after directory = usedSectors fs.disk directory := by
    rw [usedSectors, usedSectors, files, entries]
  have apart := system
  rw [keeps.systemSectors_eq] at apart
  refine ⟨⟨keeps.written same heads keeps.numBits keeps.words ?_ ?_, ?_, ?_, ?_⟩, headers, ?_⟩
  · rw [stored_congr keeps.mapValid (fun sector listed => apart sector (List.mem_append_left _ listed))
      same, keeps.mapStored]
  · rw [stored_congr keeps.directoryValid
      (fun sector listed => apart sector (List.mem_append_right _ listed)) same,
      keeps.directoryStored]
  · exact ⟨sectors ▸ allocated.distinct, sectors ▸ allocated.marked, sectors ▸ allocated.inside,
      fun other member' used' => headers other member' used' ▸ allocated.valid other member' used',
      allocated.names⟩
  · exact files ▸ mounted.system
  · exact fun other member' used' => headers other member' used' ▸ mounted.tight other member' used'
  · -- The sectors of another file are others.
    intro other member' differ
    by_cases used' : other.inUse = true
    · refine (allocated.file_congr same member' used' fun sector listed listed' => ?_).2
      exact differ (allocated.alone member' member listed (mem_entrySectors_of_data used listed'))
    · rw [fileOf, fileOf, if_neg used', if_neg used']

/-- `Open` answers with the header of the entry that is for the name. -/
theorem openFile (mounted : Mounted fs freeMap directory) (garbage : Garbage) (name : List Byte) :
    (fs.openFile garbage name = .ok none ∧ directory.findIndex name = none) ∨
      ∃ entry ∈ directory.table, entry.isFor name = true ∧
        fs.openFile garbage name = .ok (some ⟨headerOf fs.disk entry.sector.toInt, 0⟩) := by
  rw [FileSystem.openFile, mounted.keeps.fetchDirectory, Runs.ok_bind]
  cases found : directory.findIndex name with
  | none =>
    -- The sector is -1 then.
    have missing : directory.find name = -1 := by simp [Directory.find, found]
    refine .inl ⟨?_, rfl⟩
    rw [missing]
    rfl
  | some index =>
    obtain ⟨entry, located, used, agrees⟩ := Directory.findIndex_eq_some found
    have member := List.mem_of_getElem? located
    refine .inr ⟨entry, member, ?_, ?_⟩
    · rw [DirectoryEntry.isFor, used, agrees]
      rfl
    · obtain ⟨natural, inside⟩ := mounted.allocated.inside entry.sector.toInt
        (mem_usedSectors_of_entry member (mem_entrySectors_self used))
      rw [Directory.find_eq found located]
      dsimp only
      rw [if_pos natural]
      -- The header lies in a sector of the disk.
      obtain ⟨number, same⟩ := Int.eq_ofNat_of_zero_le natural
      rw [OpenFile.new, same, FileHeader.fetchFrom_eq _ (by omega)]
      rfl

/-- Started again, Nachos finds the same file system. -/
theorem mount (mounted : Mounted fs freeMap directory) :
    ∃ after, FileSystem.mount fs.disk = .ok after ∧ after.disk = fs.disk ∧
      Mounted after freeMap directory := by
  have keeps := mounted.keeps
  refine ⟨⟨fs.disk, ⟨headerOf fs.disk freeMapSector, 0⟩, ⟨headerOf fs.disk directorySector, 0⟩⟩, ?_,
    rfl, ⟨rfl, rfl, ?_, ?_, ?_, ?_, keeps.numBits, keeps.words, ?_, ?_⟩, mounted.allocated,
    mounted.system, mounted.tight⟩
  · -- Both headers are where they were when the disk was formatted.
    rw [FileSystem.mount, OpenFile.new, FileHeader.fetchFrom_eq _ (by decide), OpenFile.new,
      FileHeader.fetchFrom_eq _ (by decide)]
    rfl
  · exact keeps.mapHeader ▸ keeps.mapValid
  · exact keeps.directoryHeader ▸ keeps.directoryValid
  · exact keeps.mapHeader ▸ keeps.mapLength
  · exact keeps.directoryHeader ▸ keeps.directoryLength
  · exact keeps.mapHeader ▸ keeps.mapStored
  · exact keeps.directoryHeader ▸ keeps.directoryStored

/-- A disk that was just formatted holds no files. -/
theorem format (disk : Disk) (garbage : Garbage) :
    ∃ fs freeMap directory, FileSystem.format disk garbage = .ok fs ∧
      Mounted fs freeMap directory ∧ shelved fs.disk directory = [] := by
  obtain ⟨fs, freeMap, directory, done, keeps, allocated, system, idle⟩ := format_exact disk garbage
  refine ⟨fs, freeMap, directory, done, ⟨keeps, allocated, system, ?_⟩, ?_⟩
  · intro entry member used
    simp [idle entry member] at used
  · rw [shelved, List.flatMap_eq_nil_iff]
    intro entry member
    rw [fileOf, idle entry member]
    rfl

end Mounted

namespace Created

variable {initialSize : BitVec 32} {place sector : Nat} {new : List Nat} {fs' : FileSystem}

/-- What `Create` writes to belongs to no file from before. -/
theorem apart (created : Created fs fs' freeMap freeMap' directory directory' name initialSize place
    entry sector new) (allocated : Allocated fs.disk freeMap directory) :
    ∀ other ∈ directory.table, ∀ number ∈ entrySectors fs.disk other,
      number ∉ (sector : Int) :: systemSectors fs.disk := by
  intro other member number listed member'
  rcases List.mem_cons.mp member' with rfl | system
  · exact created.fresh sector List.mem_cons_self (mem_usedSectors_of_entry member listed)
  · exact allocated.apart_system member listed system

/-- The number of the new header survives being stored in an entry. -/
theorem toInt_sector (created : Created fs fs' freeMap freeMap' directory directory' name
    initialSize place entry sector new) : (BitVec.ofNat 32 sector).toInt = sector :=
  toInt_ofNat_sector created.inside

/-- The new entry is in use, under the name that was asked for. -/
theorem fileOf_entry (created : Created fs fs' freeMap freeMap' directory directory' name
    initialSize place entry sector new) :
    fileOf fs'.disk (entry.occupy name (BitVec.ofNat 32 sector)) =
      [(kept name, stored fs'.disk (headerOf fs'.disk sector))] := by
  have named := created.toInt_sector
  have used : (entry.occupy name (BitVec.ofNat 32 sector)).inUse = true := rfl
  rw [fileOf, if_pos used, kept_occupy]
  simp only [DirectoryEntry.occupy, named]

/-- After `Create` there is one more file. -/
theorem shelved_perm (created : Created fs fs' freeMap freeMap' directory directory' name
    initialSize place entry sector new) (allocated : Allocated fs.disk freeMap directory) :
    (shelved fs'.disk directory').Perm
      ((kept name, stored fs'.disk (headerOf fs'.disk sector)) :: shelved fs.disk directory) := by
  have before := allocated.shelved_congr created.same (created.apart allocated)
  have moved := flatMap_modify_perm (·.occupy name (BitVec.ofNat 32 sector)) (fileOf fs'.disk)
    created.located
  -- The entry that is filled in held no file.
  have nothing : fileOf fs'.disk entry = [] := by rw [fileOf, created.unused]; rfl
  rw [nothing, List.append_nil, created.fileOf_entry] at moved
  rw [created.entered, ← before]
  exact moved.trans (List.perm_append_singleton _ _)

/-- After `Create` the directory and the map still agree with the disk. -/
theorem mounted (created : Created fs fs' freeMap freeMap' directory directory' name initialSize
    place entry sector new) (before : Mounted fs freeMap directory) :
    Mounted fs' freeMap' directory' := by
  have allocated := before.allocated
  have named := created.toInt_sector
  have kept : ∀ number ∈ [(freeMapSector : Int), directorySector],
      number ∈ usedSectors fs.disk directory ∧ number ∉ (sector : Int) :: systemSectors fs.disk := by
    intro number member
    have refers : number ∈ (freeMapSector : Int) :: (directorySector : Int) ::
        directory.table.flatMap (entrySectors fs.disk) := by
      simp only [List.mem_cons, List.not_mem_nil, or_false] at member
      rcases member with rfl | rfl <;> simp
    refine ⟨List.mem_append_right _ refers, fun member' => ?_⟩
    rcases List.mem_cons.mp member' with rfl | system
    · exact created.fresh sector List.mem_cons_self (List.mem_append_right _ refers)
    · exact allocated.apart refers system
  have heads : ∀ number ∈ [(freeMapSector : Int), directorySector],
      headerOf fs'.disk number = headerOf fs.disk number :=
    fun number member => allocated.headerOf_eq created.same (kept number member).1
      (kept number member).2
  refine ⟨created.keeps, created.allocated, ?_, ?_⟩
  · rw [systemSectors, heads _ (by simp), heads _ (by simp)]
    exact before.system
  · intro other member used
    rw [created.entered] at member
    obtain ⟨index, found⟩ := List.getElem?_of_mem member
    rw [Directory.getElem?_modify] at found
    split at found
    · -- The new header lists as many sectors as were taken for it.
      rename_i here
      rw [← here, created.located, Option.map_some, Option.some.injEq] at found
      subst found
      rw [DirectoryEntry.occupy, named, FileHeader.Tight, created.sectors, List.length_map,
        created.length, FileHeader.fileLength, created.numBytes]
    · have member' := List.mem_of_getElem? found
      rw [(allocated.file_congr created.same member' used (created.apart allocated other member')).1]
      exact before.tight other member' used

end Created

namespace Removed

variable {place : Nat} {fs' : FileSystem}

/-- Apart from the one that was given up, all files are still there. -/
theorem shelved_perm (removed : Removed fs fs' freeMap freeMap' directory name place entry)
    (allocated : Allocated fs.disk freeMap directory) :
    (shelved fs.disk directory).Perm ((kept entry.name.1,
        stored fs.disk (headerOf fs.disk entry.sector.toInt)) :: shelved fs'.disk
      (directory.modify place fun entry => { entry with inUse := false })) := by
  have before := allocated.shelved_congr removed.same fun other member number listed =>
    allocated.apart_system member listed
  have member := List.mem_of_getElem? removed.located
  have file := (allocated.file_congr removed.same member removed.used fun number listed =>
    allocated.apart_system member listed).2
  have moved := flatMap_modify_perm (fun entry => { entry with inUse := false }) (fileOf fs'.disk)
    removed.located
  rw [file, fileOf, if_pos removed.used] at moved
  have nothing : fileOf fs'.disk { entry with inUse := false } = [] := rfl
  rw [nothing, List.append_nil] at moved
  rw [← before]
  exact (moved.symm.trans (List.perm_append_singleton _ _))

/-- After `Remove` the directory and the map still agree with the disk. -/
theorem mounted (removed : Removed fs fs' freeMap freeMap' directory name place entry)
    (before : Mounted fs freeMap directory) :
    Mounted fs' freeMap' (directory.modify place fun entry => { entry with inUse := false }) := by
  have allocated := before.allocated
  refine ⟨removed.keeps, removed.allocated, ?_, ?_⟩
  · have first : (freeMapSector : Int) ∉ systemSectors fs.disk := allocated.apart (by simp)
    have second : (directorySector : Int) ∉ systemSectors fs.disk := allocated.apart (by simp)
    rw [systemSectors, headerOf_congr (removed.same _ first), headerOf_congr (removed.same _ second)]
    exact before.system
  · intro other member used
    obtain ⟨index, found⟩ := List.getElem?_of_mem member
    rw [Directory.getElem?_modify] at found
    split at found
    · -- The entry that was given up is not in use.
      obtain ⟨old, -, rfl⟩ := Option.map_eq_some_iff.mp found
      simp at used
    · have member' := List.mem_of_getElem? found
      rw [(allocated.file_congr removed.same member' used fun number listed =>
        allocated.apart_system member' listed).1]
      exact before.tight other member' used

end Removed

/-- All bytes of the file of a name, as `Open` and `ReadAt` show them. -/
def FileSystem.whole (fs : FileSystem) (garbage : Garbage) (name : List Byte) : List Byte :=
  match fs.openFile garbage name with
  | .ok (some file) =>
    match file.readAt fs.disk file.hdr.fileLength 0 with
    | .ok bytes => bytes
    | .error _ => []
  | _ => []

/-- What `Open` and `ReadAt` show is what is stored. -/
theorem Mounted.whole_eq (mounted : Mounted fs freeMap directory) (garbage : Garbage)
    {contents : List Byte} (held : (kept name, contents) ∈ shelved fs.disk directory) :
    fs.whole garbage name = contents := by
  have present : (directory.findIndex name).isSome :=
    findIndex_isSome_iff.mpr (List.mem_map_of_mem held)
  rcases mounted.openFile garbage name with ⟨-, missing⟩ | ⟨other, member', named, opened⟩
  · rw [missing] at present
    cases present
  · -- Only one entry is for the name.
    have equal := List.inj_on_of_nodup_map (mounted.allocated.names.nodup fs.disk)
      (mem_shelved_of_isFor fs.disk member' named) held rfl
    have valid := mounted.allocated.valid other member' (isFor_iff.mp named).1
    have read := @OpenFile.readAt_all ⟨headerOf fs.disk other.sector.toInt, 0⟩ valid fs.disk _ rfl
    rw [FileSystem.whole, opened]
    dsimp only
    rw [read]
    exact (Prod.mk.inj equal).2

namespace Session

/-- A request of a program, with its answer, as a store of files understands it. -/
def event (request : Request) (answer : Answer) (after : Session) : Files.Event (List Byte) Byte :=
  match request with
  | .create garbage name initialSize =>
    .created (kept name) initialSize.toInt.toNat answer.success (after.fs.whole garbage name)
  | .remove _ name => .removed (kept name) answer.success
  | .openAs handle _ name => .opened handle (kept name) answer.success
  | .close handle => .closed handle
  | .seek handle position => .sought handle position.toNat
  | .read handle numBytes => .read handle numBytes.toNat answer.bytes
  | .write handle _ source numBytes =>
    .wrote handle (Blocks.cells source 0 numBytes.toNat) answer.count
  | .readAt handle numBytes position =>
    .readAt handle numBytes.toNat position.toNat answer.bytes
  | .writeAt handle _ source numBytes position =>
    .wroteAt handle (Blocks.cells source 0 numBytes.toNat) position.toNat answer.count
  | .restart => .restarted

/-- Every request that is served is recorded with its answer. -/
def observe (session : Session) (request : Request) (_ : Session) :
    List (Files.Event (List Byte) Byte) :=
  match session.perform request with
  | .error _ => []
  | .ok (answer, after) => [event request answer after]

end Session

/-- A handle of a program is a handle of the store, on the file of its name. -/
structure Attached (disk : Disk) (directory : Directory) (found : Handle)
    (value : List Byte × Nat) : Prop where
  name : value.1 = kept found.name
  position : found.file.seekPosition = value.2
  header : ∃ entry ∈ directory.table, entry.isFor found.name = true ∧
    found.file.hdr = headerOf disk entry.sector.toInt

/-- What a session shows is a store of files. -/
structure Shows (session : Session) (freeMap : BitMap) (directory : Directory)
    (store : Files.Store (List Byte) Byte) : Prop where
  mounted : Mounted session.fs freeMap directory
  shelf : store.shelf.entries = shelved session.fs.disk directory
  handles : ∀ handle, Option.Rel (Attached session.fs.disk directory) (session.handles handle)
    (store.handles handle)

/-- A session is a store of files to the program that works with it. -/
def Represents (session : Session) (store : Files.Store (List Byte) Byte) : Prop :=
  ∃ freeMap directory, Shows session freeMap directory store

end Nachos.Filesys
