import Nachos.Filesys.Directory

/-! `FileSystem`: formatting the disk, creating files and removing them. -/

namespace Nachos.Filesys

/-- `FreeMapSector`. -/
def freeMapSector : Nat := 0

/-- `DirectorySector`. -/
def directorySector : Nat := 1

/-- `FreeMapFileSize`: a bit for every sector. -/
def freeMapFileSize : BitVec 32 := BitVec.ofNat 32 (numSectors / 8)

/-- `DirectoryFileSize`. -/
def directoryFileSize : BitVec 32 := BitVec.ofNat 32 (DirectoryEntry.codec.size * numDirEntries)

/-- What the allocator left in the objects that an operation creates. -/
structure Garbage where
  directory : Directory
  words : { words : List (BitVec 32) // words.length = numSectors / bitsInWord }
  header : FileHeader
  mapHeader : FileHeader
  directoryBuffer : Buffer
  mapBuffer : Buffer

/-- `new BitMap(NumSectors)`. -/
def Garbage.newMap (garbage : Garbage) : BitMap :=
  BitMap.new numSectors garbage.words.1 (by rw [garbage.words.2]; decide)

/-- The disk, and the two files that are kept open while Nachos is running. -/
structure FileSystem where
  disk : Disk
  freeMapFile : OpenFile
  directoryFile : OpenFile

namespace FileSystem

/-- `ASSERT` of the answer of `FileHeader::Allocate`. -/
def mustAllocate (header : FileHeader) (freeMap : BitMap) (fileSize : BitVec 32) :
    Except Fault (FileHeader × BitMap) := do
  let (allocated, header, freeMap) ← header.allocate freeMap fileSize
  if allocated then return (header, freeMap) else .error .assertion

/-- `FileSystem::FileSystem(true)`, for a disk with anything on it. -/
def format (disk : Disk) (garbage : Garbage) : Except Fault FileSystem := do
  let directory := Directory.new garbage.directory
  let freeMap ← garbage.newMap.mark freeMapSector
  let freeMap ← freeMap.mark directorySector
  let (mapHdr, freeMap) ← mustAllocate garbage.mapHeader freeMap freeMapFileSize
  let (dirHdr, freeMap) ← mustAllocate garbage.header freeMap directoryFileSize
  let disk ← mapHdr.writeBack disk freeMapSector
  let disk ← dirHdr.writeBack disk directorySector
  let freeMapFile ← OpenFile.new disk freeMapSector
  let directoryFile ← OpenFile.new disk directorySector
  let disk ← freeMap.writeBack freeMapFile disk garbage.mapBuffer
  let disk ← directory.writeBack directoryFile disk garbage.directoryBuffer
  return ⟨disk, freeMapFile, directoryFile⟩

/-- The part of `FileSystem::Create` that flushes all changes to the disk. -/
def flushCreated (fs : FileSystem) (garbage : Garbage) (hdr : FileHeader) (sector : Int)
    (directory : Directory) (freeMap : BitMap) : Except Fault FileSystem := do
  let disk ← hdr.writeBack fs.disk sector
  let disk ← directory.writeBack fs.directoryFile disk garbage.directoryBuffer
  let disk ← freeMap.writeBack fs.freeMapFile disk garbage.mapBuffer
  return { fs with disk }

/-- `FileSystem::Create`. -/
def create (fs : FileSystem) (garbage : Garbage) (name : List Byte) (initialSize : BitVec 32) :
    Except Fault (Bool × FileSystem) := do
  let directory ← (Directory.new garbage.directory).fetchFrom fs.directoryFile fs.disk
  if directory.find name ≠ -1 then return (false, fs)
  else
    let freeMap ← garbage.newMap.fetchFrom fs.freeMapFile fs.disk
    match freeMap.find with
    | none => return (false, fs)
    | some (sector, freeMap) =>
      match directory.add name (BitVec.ofNat 32 sector) with
      | none => return (false, fs)
      | some directory =>
        let (allocated, hdr, freeMap) ← garbage.header.allocate freeMap initialSize
        if allocated then
          let fs ← fs.flushCreated garbage hdr sector directory freeMap
          return (true, fs)
        else return (false, fs)

/-- `FileSystem::Open`. -/
def openFile (fs : FileSystem) (garbage : Garbage) (name : List Byte) :
    Except Fault (Option OpenFile) := do
  let directory ← (Directory.new garbage.directory).fetchFrom fs.directoryFile fs.disk
  let sector := directory.find name
  if 0 ≤ sector then
    let file ← OpenFile.new fs.disk sector
    return some file
  else return none

/-- `FileSystem::Remove`. -/
def remove (fs : FileSystem) (garbage : Garbage) (name : List Byte) :
    Except Fault (Bool × FileSystem) := do
  let directory ← (Directory.new garbage.directory).fetchFrom fs.directoryFile fs.disk
  let sector := directory.find name
  if sector = -1 then return (false, fs)
  else
    let fileHdr ← FileHeader.fetchFrom fs.disk sector
    let freeMap ← garbage.newMap.fetchFrom fs.freeMapFile fs.disk
    let freeMap ← fileHdr.deallocate freeMap
    let freeMap ← freeMap.clear sector
    let directory := (directory.remove name).getD directory
    let disk ← freeMap.writeBack fs.freeMapFile fs.disk garbage.mapBuffer
    let disk ← directory.writeBack fs.directoryFile disk garbage.directoryBuffer
    return (true, { fs with disk })

end FileSystem

/-- The requests that change the disk. -/
inductive Action where
  | create (garbage : Garbage) (name : List Byte) (initialSize : BitVec 32)
  | remove (garbage : Garbage) (name : List Byte)

/-- Serve a request: its answer, and the file system after it. -/
def perform (fs : FileSystem) : Action → Except Fault (Bool × FileSystem)
  | .create garbage name initialSize => fs.create garbage name initialSize
  | .remove garbage name => fs.remove garbage name

/-- Serve a request, whatever the answer. -/
def step (fs : FileSystem) (action : Action) : Except Fault FileSystem := do
  let (_, after) ← perform fs action
  return after

/-- A file system on a disk that was just formatted. -/
def Formatted (fs : FileSystem) : Prop := ∃ disk garbage, FileSystem.format disk garbage = .ok fs

/-- No file is larger than files may be. -/
def SizeAllowed (_ : FileSystem) : Action → Prop
  | .create _ _ initialSize => initialSize.toInt ≤ maxFileSize
  | .remove _ _ => True

end Nachos.Filesys
