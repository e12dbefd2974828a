import Nachos.Machine.Translate

/-! Executable files as the kernel sees them: a NOFF header and the bytes behind it. -/

namespace Nachos

/-- One segment of a NOFF header. -/
structure Segment where
  virtualAddr : BitVec 32
  inFileAddr : BitVec 32
  size : BitVec 32
  deriving DecidableEq, Repr

/-- The header fields the kernel reads. On a little endian host no byte swapping takes place. -/
structure NoffHeader where
  /-- Whether `noffMagic` is `NOFFMAGIC`. -/
  isNoff : Bool
  code : Segment
  initData : Segment
  uninitData : Segment
  deriving DecidableEq, Repr

/-- A file that the kernel opens to run. Offsets and lengths of files are of type `int`. -/
structure Executable where
  header : NoffHeader
  contents : List Byte
  fits : contents.length < 2 ^ 31

namespace Executable

/-- The byte at a position of the file, if the file has one there. -/
def byteAt (file : Executable) (position : Int) : Option Byte :=
  if 0 ≤ position then file.contents[position.toNat]? else none

/-- `OpenFile::ReadAt`: as many bytes as the file has; a seek before its start aborts. -/
def readAt (file : Executable) (numBytes position : BitVec 32) : Except Fault (List Byte) :=
  if 0 ≤ position.toInt then
    .ok ((file.contents.drop position.toInt.toNat).take numBytes.toInt.toNat)
  else .error .assertion

/-- The bytes a read brings, with zeros where the file has none. -/
theorem readAt_getD {file : Executable} {numBytes position : BitVec 32} {bytes : List Byte}
    (read : file.readAt numBytes position = .ok bytes) :
    0 ≤ position.toInt ∧ ∀ offset, offset < numBytes.toInt.toNat →
      bytes[offset]?.getD 0 = (file.byteAt (position.toInt + offset)).getD 0 := by
  unfold readAt at read
  split at read
  · rename_i natural
    simp only [Except.ok.injEq] at read
    refine ⟨natural, ?_⟩
    intro offset inside
    -- Behind the end of the file both sides find nothing.
    have place : (position.toInt + offset).toNat = position.toInt.toNat + offset := by omega
    rw [← read, List.getElem?_take_of_lt inside, List.getElem?_drop, byteAt,
      if_pos (by omega), place]
  · simp at read

/-- A read fails only in front of the file. -/
theorem readAt_ok {file : Executable} {position : BitVec 32} (numBytes : BitVec 32)
    (natural : 0 ≤ position.toInt) : ∃ bytes, file.readAt numBytes position = .ok bytes :=
  ⟨_, by rw [readAt, if_pos natural]⟩

/-- The number of pages of the address space, as both constructors compute it. -/
def numPages (file : Executable) : Nat :=
  let size := file.header.code.size + file.header.initData.size + file.header.uninitData.size
    + BitVec.ofNat 32 userStackSize
  (BitVec.ofInt 32 (divRoundUp size.toInt pageSize)).toNat

/-- The bytes of a segment lie inside the file. An empty segment may be said to lie anywhere. -/
def Readable (file : Executable) (segment : Segment) : Prop :=
  segment.size.toInt = 0 ∨ 0 ≤ segment.inFileAddr.toInt ∧
    segment.inFileAddr.toInt + segment.size.toInt ≤ file.contents.length

/-- Inside a readable segment no position leaves the range of `int`. -/
theorem Readable.position {file : Executable} {segment : Segment}
    (readable : file.Readable segment) {count : BitVec 32} {counted : Int}
    (same : count.toInt = counted) (natural : 0 ≤ counted)
    (inside : counted < segment.size.toInt) : 0 ≤ (segment.inFileAddr + count).toInt := by
  obtain ⟨low, high⟩ := readable.resolve_left (by omega)
  have short := file.fits
  rw [BitVec.toInt_add, Int.bmod_def]
  omega

/-- The byte at an offset of a segment, as it arrives in memory that was cleared before. -/
def segmentByte (file : Executable) (segment : Segment) (offset : Nat) : Byte :=
  (file.byteAt (segment.inFileAddr.toInt + offset)).getD 0

/-- The bytes of a program in the order of its addresses: code, initialised data, zeros. -/
def programByte (file : Executable) (address : Nat) : Byte :=
  let codeSize := file.header.code.size.toInt.toNat
  let dataSize := file.header.initData.size.toInt.toNat
  if address < codeSize then file.segmentByte file.header.code address
  else if address < codeSize + dataSize then
    file.segmentByte file.header.initData (address - codeSize)
  else 0

end Executable

end Nachos
