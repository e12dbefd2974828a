import Nachos.Lib.Codec
import Nachos.Lib.Runs
import Nachos.Userprog.BitMap

/-! Files of the Nachos file system: sectors, headers, and reading and writing through them. -/

namespace Nachos.Filesys

/-- `SectorSize`. -/
def sectorSize : Nat := 128

/-- `NumSectors`: all sectors of all tracks. -/
def numSectors : Nat := 32 * 32

/-- `NumDirect`: a header is two numbers and a table, and fills a sector. -/
def numDirect : Nat := (sectorSize - 2 * 4) / 4

/-- `MaxFileSize`. -/
def maxFileSize : Nat := numDirect * sectorSize

/-- The bytes of the disk, one sector behind the other. -/
abbrev Disk := Nat → Byte

/-- The bytes that a `char*` points to. -/
abbrev Buffer := Nat → Byte

/-- A buffer that begins with these bytes. -/
def Buffer.ofList (bytes : List Byte) : Buffer := fun place => bytes[place]?.getD 0

/-- The `ASSERT` of `Disk::ReadRequest` and `Disk::WriteRequest`. -/
def sectorNumber (sector : Int) : Except Fault Nat :=
  if 0 ≤ sector ∧ sector < numSectors then .ok sector.toNat else .error .assertion

/-- `SynchDisk::ReadSector`. -/
def readSector (disk : Disk) (sector : Int) : Except Fault (List Byte) := do
  let number ← sectorNumber sector
  return Blocks.cells disk (number * sectorSize) sectorSize

/-- `SynchDisk::WriteSector`, for the bytes of one sector. -/
def writeSector (disk : Disk) (sector : Int) (bytes : List Byte) : Except Fault Disk := do
  let number ← sectorNumber sector
  return Blocks.setCells disk (number * sectorSize) bytes

/-- An `int` in memory, lowest byte first. -/
def wordCodec : Codec Byte (BitVec 32) where
  size := 4
  encode value := [value.extractLsb' 0 8, value.extractLsb' 8 8, value.extractLsb' 16 8,
    value.extractLsb' 24 8]
  decode
    | [b0, b1, b2, b3] => b3 ++ b2 ++ b1 ++ b0
    | _ => 0
  length_encode _ := rfl
  decode_encode value := by
    apply BitVec.eq_of_getLsbD_eq
    intro bit inside
    simp only [BitVec.getLsbD_append, BitVec.getLsbD_extractLsb']
    grind

/-- `FileHeader`. -/
structure FileHeader where
  numBytes : BitVec 32
  numSectors : BitVec 32
  dataSectors : List (BitVec 32)
  direct : dataSectors.length = numDirect

namespace FileHeader

/-- The header as it lies in memory and on the disk. -/
def codec : Codec Byte FileHeader :=
  (wordCodec.pair (wordCodec.pair (wordCodec.array numDirect))).through
    (fun value => ⟨value.1, value.2.1, value.2.2.1, value.2.2.2⟩)
    (fun header => (header.numBytes, header.numSectors, ⟨header.dataSectors, header.direct⟩))
    (fun _ => rfl)

/-- `FileHeader::FetchFrom`. -/
def fetchFrom (disk : Disk) (sector : Int) : Except Fault FileHeader := do
  let bytes ← readSector disk sector
  return codec.decode bytes

/-- `FileHeader::WriteBack`. -/
def writeBack (header : FileHeader) (disk : Disk) (sector : Int) : Except Fault Disk :=
  writeSector disk sector (codec.encode header)

/-- An entry of the table, for an index inside it. -/
def dataSector (header : FileHeader) (index : Int) : Except Fault Int :=
  match if 0 ≤ index then header.dataSectors[index.toNat]? else none with
  | none => .error (.wildAccess index)
  | some sector => .ok sector.toInt

/-- The header with another number in an entry of its table. -/
def withSector (header : FileHeader) (index : Nat) (sector : BitVec 32) : FileHeader :=
  { header with
    dataSectors := header.dataSectors.set index sector
    direct := by rw [List.length_set, header.direct] }

/-- An assignment to an entry of the table, for an index inside it. -/
def setDataSector (header : FileHeader) (index : Nat) (sector : BitVec 32) :
    Except Fault FileHeader :=
  if index < numDirect then .ok (header.withSector index sector) else .error (.wildAccess index)

/-- The loop of `FileHeader::Allocate`, with so many turns left. -/
def allocateSectors : Nat → Nat → FileHeader → BitMap → Except Fault (FileHeader × BitMap)
  | 0, _, header, freeMap => .ok (header, freeMap)
  | count + 1, index, header, freeMap => do
    let (sector, freeMap) :=
      match freeMap.find with
      | none => (-1#32, freeMap)
      | some (number, freeMap) => (BitVec.ofNat 32 number, freeMap)
    let header ← header.setDataSector index sector
    allocateSectors count (index + 1) header freeMap

/-- `FileHeader::Allocate`, for a header with whatever the allocator left in it. -/
def allocate (header : FileHeader) (freeMap : BitMap) (fileSize : BitVec 32) :
    Except Fault (Bool × FileHeader × BitMap) :=
  let header := { header with
    numBytes := fileSize
    numSectors := BitVec.ofInt 32 (divRoundUp fileSize.toInt sectorSize) }
  if (freeMap.numClear : Int) < header.numSectors.toInt then .ok (false, header, freeMap)
  else do
    let (header, freeMap) ← allocateSectors header.numSectors.toInt.toNat 0 header freeMap
    return (true, header, freeMap)

/-- The loop of `FileHeader::Deallocate`, with so many turns left. -/
def deallocateSectors (header : FileHeader) : Nat → Nat → BitMap → Except Fault BitMap
  | 0, _, freeMap => .ok freeMap
  | count + 1, index, freeMap => do
    let sector ← header.dataSector index
    let marked ← freeMap.test sector
    if marked then
      let freeMap ← freeMap.clear sector
      deallocateSectors header count (index + 1) freeMap
    else .error .assertion

/-- `FileHeader::Deallocate`. -/
def deallocate (header : FileHeader) (freeMap : BitMap) : Except Fault BitMap :=
  header.deallocateSectors header.numSectors.toInt.toNat 0 freeMap

/-- `FileHeader::ByteToSector`. -/
def byteToSector (header : FileHeader) (offset : Int) : Except Fault Int :=
  header.dataSector (offset.tdiv sectorSize)

/-- `FileHeader::FileLength`. -/
def fileLength (header : FileHeader) : Int := header.numBytes.toInt

end FileHeader

/-- `OpenFile`. -/
structure OpenFile where
  hdr : FileHeader
  seekPosition : Int

namespace OpenFile

/-- `OpenFile::OpenFile`. -/
def new (disk : Disk) (sector : Int) : Except Fault OpenFile := do
  let hdr ← FileHeader.fetchFrom disk sector
  return ⟨hdr, 0⟩

/-- The loop of `ReadAt` over so many sectors, which fills its buffer from the front. -/
def readSectors (file : OpenFile) (disk : Disk) : Nat → Int → Except Fault (List Byte)
  | 0, _ => .ok []
  | count + 1, index => do
    let sector ← file.hdr.byteToSector (index * sectorSize)
    let bytes ← readSector disk sector
    let rest ← readSectors file disk count (index + 1)
    return bytes ++ rest

/-- The loop of `WriteAt` over so many sectors, from one place of its buffer on. -/
def writeSectors (file : OpenFile) (buf : Buffer) : Nat → Int → Nat → Disk → Except Fault Disk
  | 0, _, _, disk => .ok disk
  | count + 1, index, place, disk => do
    let sector ← file.hdr.byteToSector (index * sectorSize)
    let disk ← writeSector disk sector (Blocks.cells buf (place * sectorSize) sectorSize)
    writeSectors file buf count (index + 1) (place + 1) disk

/-- A place in a buffer, which must not lie before it. -/
def bufferIndex (place : Int) : Except Fault Nat :=
  if 0 ≤ place then .ok place.toNat else .error (.wildAccess place)

/-- The number of bytes of a request that lie inside the file. -/
def granted (file : OpenFile) (numBytes position : Int) : Int :=
  if position + numBytes > file.hdr.fileLength then file.hdr.fileLength - position else numBytes

/-- `OpenFile::ReadAt`: the bytes that were read. -/
def readAt (file : OpenFile) (disk : Disk) (numBytes position : Int) : Except Fault (List Byte) :=
  if numBytes ≤ 0 ∨ position ≥ file.hdr.fileLength then .ok []
  else do
    let numBytes := file.granted numBytes position
    let firstSector := position.tdiv sectorSize
    let lastSector := (position + numBytes - 1).tdiv sectorSize
    let buf ← file.readSectors disk (1 + lastSector - firstSector).toNat firstSector
    let offset ← bufferIndex (position - firstSector * sectorSize)
    return (buf.drop offset).take numBytes.toNat

/-- The part of `WriteAt` that reads a sector before some of its bytes are changed. -/
def readFirst (file : OpenFile) (disk : Disk) (partly : Bool) (buf : Buffer) (index : Int)
    (place : Nat) : Except Fault Buffer :=
  if partly then do
    let bytes ← file.readAt disk sectorSize (index * sectorSize)
    return Blocks.setCells buf place bytes
  else .ok buf

/-- `OpenFile::WriteAt`, whose own buffer starts with what the allocator left in it. -/
def writeAt (file : OpenFile) (disk : Disk) (garbage source : Buffer) (numBytes position : Int) :
    Except Fault (Int × Disk) :=
  if numBytes ≤ 0 ∨ position ≥ file.hdr.fileLength then .ok (0, disk)
  else do
    let numBytes := file.granted numBytes position
    let firstSector := position.tdiv sectorSize
    let lastSector := (position + numBytes - 1).tdiv sectorSize
    let firstAligned := position == firstSector * sectorSize
    let lastAligned := position + numBytes == (lastSector + 1) * sectorSize
    let buf ← file.readFirst disk (!firstAligned) garbage firstSector 0
    let buf ← file.readFirst disk (!lastAligned && (firstSector != lastSector || firstAligned)) buf
      lastSector ((lastSector - firstSector) * sectorSize).toNat
    let offset ← bufferIndex (position - firstSector * sectorSize)
    let buf := Blocks.setCells buf offset (Blocks.cells source 0 numBytes.toNat)
    let disk ← file.writeSectors buf (1 + lastSector - firstSector).toNat firstSector 0 disk
    return (numBytes, disk)

/-- `OpenFile::Write`. -/
def write (file : OpenFile) (disk : Disk) (garbage source : Buffer) (numBytes : Int) :
    Except Fault (Int × OpenFile × Disk) := do
  let (result, disk) ← file.writeAt disk garbage source numBytes file.seekPosition
  return (result, { file with seekPosition := file.seekPosition + result }, disk)

end OpenFile

/-- A part of memory, after new bytes have been read over its beginning. -/
def overlay (old new : List Byte) : List Byte := new ++ old.drop new.length

end Nachos.Filesys

namespace Nachos.BitMap

open Filesys

/-- The words of the map as they lie in memory. -/
def codec (bitmap : BitMap) : Codec Byte { words : List (BitVec 32) // words.length = bitmap.map.length } :=
  wordCodec.array bitmap.map.length

/-- `BitMap::FetchFrom`. -/
def fetchFrom (bitmap : BitMap) (file : OpenFile) (disk : Disk) : Except Fault BitMap := do
  let bytes ← file.readAt disk bitmap.codec.size 0
  let words := bitmap.codec.decode (overlay (bitmap.codec.encode ⟨bitmap.map, rfl⟩) bytes)
  return { bitmap with map := words.1, covers := by rw [words.2]; exact bitmap.covers }

/-- `BitMap::WriteBack`. -/
def writeBack (bitmap : BitMap) (file : OpenFile) (disk : Disk) (garbage : Buffer) :
    Except Fault Disk := do
  let (_, disk) ← file.writeAt disk garbage (Buffer.ofList (bitmap.codec.encode ⟨bitmap.map, rfl⟩))
    bitmap.codec.size 0
  return disk

end Nachos.BitMap
