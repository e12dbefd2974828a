import Mathlib.Logic.Function.Basic
import Nachos.Filesys.FileSystem
import Nachos.Lib.Files

/-! A program at work with the file system: files are created, opened, read, written and removed. -/

namespace Nachos.Filesys

/-- `FileSystem::FileSystem(false)`, for a disk that was formatted before. -/
def FileSystem.mount (disk : Disk) : Except Fault FileSystem := do
  let freeMapFile ← OpenFile.new disk freeMapSector
  let directoryFile ← OpenFile.new disk directorySector
  return ⟨disk, freeMapFile, directoryFile⟩

/-- `OpenFile::Seek`. -/
def OpenFile.seek (file : OpenFile) (position : Int) : OpenFile :=
  { file with seekPosition := position }

/-- `OpenFile::Read`: the bytes that were read, and their number moves the position. -/
def OpenFile.read (file : OpenFile) (disk : Disk) (numBytes : Int) :
    Except Fault (List Byte × OpenFile) := do
  let bytes ← file.readAt disk numBytes file.seekPosition
  return (bytes, { file with seekPosition := file.seekPosition + bytes.length })

/-- An open file, and the name it was opened by. -/
structure Handle where
  name : List Byte
  file : OpenFile

/-- The file system, and the files that a program has open. -/
structure Session where
  fs : FileSystem
  handles : Nat → Option Handle

/-- What a program asks the file system for. -/
inductive Request where
  | create (garbage : Garbage) (name : List Byte) (initialSize : BitVec 32)
  | remove (garbage : Garbage) (name : List Byte)
  | openAs (handle : Nat) (garbage : Garbage) (name : List Byte)
  | close (handle : Nat)
  | seek (handle : Nat) (position : Int)
  | read (handle : Nat) (numBytes : Int)
  | write (handle : Nat) (garbage source : Buffer) (numBytes : Int)
  | readAt (handle : Nat) (numBytes position : Int)
  | writeAt (handle : Nat) (garbage source : Buffer) (numBytes position : Int)
  | restart

/-- What a request answers, as far as it answers anything. -/
structure Answer where
  success : Bool
  bytes : List Byte
  count : Int

/-- A request that answers nothing. -/
def Answer.done : Answer := ⟨true, [], 0⟩

/-- Whether a request succeeded. -/
def Answer.of (success : Bool) : Answer := ⟨success, [], 0⟩

/-- Bytes that were read, and their number. -/
def Answer.read (bytes : List Byte) : Answer := ⟨true, bytes, bytes.length⟩

/-- The number of bytes that were written. -/
def Answer.wrote (count : Int) : Answer := ⟨true, [], count⟩

namespace Session

/-- A file that is open: a call through any other pointer is no call of this file system. -/
def find (session : Session) (handle : Nat) : Except Fault Handle :=
  match session.handles handle with
  | none => .error (.wildAccess handle)
  | some found => .ok found

/-- The session with another file, or none, behind a handle. -/
def setHandle (session : Session) (handle : Nat) (value : Option Handle) : Session :=
  { session with handles := Function.update session.handles handle value }

/-- The session with another disk. -/
def withDisk (session : Session) (disk : Disk) : Session :=
  { session with fs := { session.fs with disk } }

/-- Serve a request: its answer, and the session after it. -/
def perform (session : Session) : Request → Except Fault (Answer × Session)
  | .create garbage name initialSize => do
    let (success, fs) ← session.fs.create garbage name initialSize
    return (.of success, { session with fs })
  | .remove garbage name => do
    let (success, fs) ← session.fs.remove garbage name
    return (.of success, { session with fs })
  | .openAs handle garbage name => do
    match ← session.fs.openFile garbage name with
    | none => return (.of false, session.setHandle handle none)
    | some file => return (.of true, session.setHandle handle (some ⟨name, file⟩))
  | .close handle => .ok (.done, session.setHandle handle none)
  | .seek handle position => do
    let found ← session.find handle
    return (.done, session.setHandle handle (some { found with file := found.file.seek position }))
  | .read handle numBytes => do
    let found ← session.find handle
    let (bytes, file) ← found.file.read session.fs.disk numBytes
    return (.read bytes, session.setHandle handle (some { found with file }))
  | .write handle garbage source numBytes => do
    let found ← session.find handle
    let (result, file, disk) ← found.file.write session.fs.disk garbage source numBytes
    return (.wrote result, (session.withDisk disk).setHandle handle (some { found with file }))
  | .readAt handle numBytes position => do
    let found ← session.find handle
    let bytes ← found.file.readAt session.fs.disk numBytes position
    return (.read bytes, session)
  | .writeAt handle garbage source numBytes position => do
    let found ← session.find handle
    let (result, disk) ← found.file.writeAt session.fs.disk garbage source numBytes position
    return (.wrote result, session.withDisk disk)
  | .restart => do
    let fs ← FileSystem.mount session.fs.disk
    return (.done, ⟨fs, fun _ => none⟩)

/-- Serve a request, whatever the answer. -/
def step (session : Session) (request : Request) : Except Fault Session := do
  let (_, after) ← session.perform request
  return after

/-- Nachos was started with a disk that it formatted. -/
def Started (session : Session) : Prop := Formatted session.fs ∧ session.handles = fun _ => none

/-- A request through a handle stays among the natural numbers, and its end fits into an `int`. -/
def InRange (session : Session) (handle : Nat) (numBytes : Int) (position : Int → Int) : Prop :=
  ∃ found, session.handles handle = some found ∧ 0 ≤ position found.file.seekPosition ∧
    position found.file.seekPosition + numBytes < 2 ^ 31

/--
What a program does not do.

It creates no file that is too large, uses only files that are open, from inside their range, and
removes no file that it still has open.
-/
def Careful (session : Session) : Request → Prop
  | .create _ _ initialSize => initialSize.toInt ≤ maxFileSize
  | .remove _ name => ∀ handle found, session.handles handle = some found →
      strncmp fileNameMaxLen found.name name ≠ 0
  | .openAs .. | .close _ | .restart => True
  | .seek handle position => session.InRange handle 0 fun _ => position
  | .read handle numBytes | .write handle _ _ numBytes => session.InRange handle numBytes id
  | .readAt handle numBytes position | .writeAt handle _ _ numBytes position =>
    session.InRange handle numBytes fun _ => position

end Session

end Nachos.Filesys
