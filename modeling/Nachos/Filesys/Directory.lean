import Nachos.Filesys.OpenFile

/-! The directory: a table of names and of the sectors where the headers of the files lie. -/

namespace Nachos.Filesys

/-- `FileNameMaxLen`. -/
def fileNameMaxLen : Nat := 9

/-- `strncmp`: the difference of the first characters that differ, within a string and a limit. -/
def strncmp : Nat → List Byte → List Byte → Int
  | 0, _, _ => 0
  | limit + 1, first, second =>
    -- Behind its last character a string goes on with a terminator.
    let left := first.headD 0
    let right := second.headD 0
    if left ≠ right then left.toNat - right.toNat
    else if left = 0 then 0
    else strncmp limit first.tail second.tail

/-- The characters that `strncpy` stores: the string, filled up with terminators. -/
def copied : Nat → List Byte → List Byte
  | 0, _ => []
  | limit + 1, source =>
    if source.headD 0 = 0 then List.replicate (limit + 1) 0
    else source.headD 0 :: copied limit source.tail

/-- `strncpy` into an array of characters. -/
def strncpy (limit : Nat) (into source : List Byte) : List Byte :=
  copied limit source ++ into.drop limit

/-- As many characters are stored as the limit says. -/
@[simp] theorem length_copied (limit : Nat) (source : List Byte) :
    (copied limit source).length = limit := by
  induction limit generalizing source with
  | zero => rfl
  | succ limit ih =>
    rw [copied]
    split
    · simp
    · simp [ih]

/-- `strncpy` keeps the length of an array that has room for it. -/
theorem length_strncpy {limit : Nat} {into : List Byte} (room : limit ≤ into.length)
    (source : List Byte) : (strncpy limit into source).length = into.length := by
  rw [strncpy, List.length_append, length_copied, List.length_drop]
  omega

/-- `DirectoryEntry`, with the bytes that the compiler leaves unused. -/
structure DirectoryEntry where
  inUse : Bool
  gap : { bytes : List Byte // bytes.length = 3 }
  sector : BitVec 32
  name : { chars : List Byte // chars.length = fileNameMaxLen + 1 }
  rest : { bytes : List Byte // bytes.length = 2 }

namespace DirectoryEntry

/-- A `bool` in memory. -/
def flagCodec : Codec Byte Bool :=
  (Codec.cell Byte).through (fun byte => byte != 0) (fun flag => if flag then 1 else 0)
    (by decide)

/-- The entry as it lies in memory and on the disk. -/
def codec : Codec Byte DirectoryEntry :=
  (flagCodec.pair (((Codec.cell Byte).array 3).pair (wordCodec.pair
    (((Codec.cell Byte).array (fileNameMaxLen + 1)).pair ((Codec.cell Byte).array 2))))).through
    (fun value => ⟨value.1, value.2.1, value.2.2.1, value.2.2.2.1, value.2.2.2.2⟩)
    (fun entry => (entry.inUse, entry.gap, entry.sector, entry.name, entry.rest))
    (fun _ => rfl)

/-- Is this the entry of a file whose name agrees with a name as far as names are kept? -/
def isFor (entry : DirectoryEntry) (name : List Byte) : Bool :=
  entry.inUse && strncmp fileNameMaxLen entry.name.1 name == 0

/-- The assignments of `Directory::Add` to an entry that is not in use. -/
def occupy (entry : DirectoryEntry) (name : List Byte) (newSector : BitVec 32) : DirectoryEntry :=
  { entry with
    inUse := true
    sector := newSector
    name := ⟨strncpy fileNameMaxLen entry.name.1 name, by
      rw [length_strncpy (by rw [entry.name.2]; omega), entry.name.2]⟩ }

end DirectoryEntry

/-- `NumDirEntries`. -/
def numDirEntries : Nat := 10

/-- `Directory`, of the only size there is. -/
structure Directory where
  table : List DirectoryEntry
  full : table.length = numDirEntries

namespace Directory

/-- The table as it lies in memory and on the disk. -/
def codec : Codec Byte Directory :=
  (DirectoryEntry.codec.array numDirEntries).through (fun value => ⟨value.1, value.2⟩)
    (fun directory => ⟨directory.table, directory.full⟩) (fun _ => rfl)

/-- `Directory::Directory`: the rest of each entry is what the allocator left in it. -/
def new (garbage : Directory) : Directory where
  table := garbage.table.map fun entry => { entry with inUse := false }
  full := by rw [List.length_map, garbage.full]

/-- `Directory::FetchFrom`. -/
def fetchFrom (directory : Directory) (file : OpenFile) (disk : Disk) : Except Fault Directory := do
  let bytes ← file.readAt disk codec.size 0
  return codec.decode (overlay (codec.encode directory) bytes)

/-- `Directory::WriteBack`. -/
def writeBack (directory : Directory) (file : OpenFile) (disk : Disk) (garbage : Buffer) :
    Except Fault Disk := do
  let (_, disk) ← file.writeAt disk garbage (Buffer.ofList (codec.encode directory)) codec.size 0
  return disk

/-- `Directory::FindIndex`. Where the source answers -1, so does `none`. -/
def findIndex (directory : Directory) (name : List Byte) : Option Nat :=
  directory.table.findIdx? fun entry => entry.isFor name

/-- `Directory::Find`. -/
def find (directory : Directory) (name : List Byte) : Int :=
  match (directory.findIndex name).bind (directory.table[·]?) with
  | none => -1
  | some entry => entry.sector.toInt

/-- An assignment to the entry at an index. -/
def modify (directory : Directory) (index : Nat) (change : DirectoryEntry → DirectoryEntry) :
    Directory where
  table := directory.table.modify index change
  full := by rw [List.length_modify, directory.full]

/-- `Directory::Add`. Where the source answers `false`, the directory stays as it is. -/
def add (directory : Directory) (name : List Byte) (newSector : BitVec 32) : Option Directory :=
  match directory.findIndex name with
  | some _ => none
  | none => (directory.table.findIdx? fun entry => !entry.inUse).map fun index =>
      directory.modify index (·.occupy name newSector)

/-- `Directory::Remove`. Where the source answers `false`, the directory stays as it is. -/
def remove (directory : Directory) (name : List Byte) : Option Directory :=
  (directory.findIndex name).map fun index =>
    directory.modify index fun entry => { entry with inUse := false }

end Directory

end Nachos.Filesys
