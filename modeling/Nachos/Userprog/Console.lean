import Nachos.Machine.Translate
import Nachos.Threads.Supply

/-! The console device, and `ConsoleTest`, which echoes what is typed until it has echoed a `q`. -/

namespace Nachos

open Threads (Routines Client Outcome Act)

/-- `EOF`, as a `char`. -/
def eof : Byte := 0xFF

/-- `Console`, with what the host and the interrupt hardware hold for it. -/
structure Console where
  /-- What has been typed and not read, oldest first. -/
  keyboard : List Byte
  /-- What has been written, oldest first. -/
  display : List Byte
  putBusy : Bool
  incoming : Byte
  /-- How many `ConsoleWriteDone` interrupts are to come; the next `ConsoleReadPoll` always is. -/
  scheduled : Nat
  numConsoleCharsRead : Nat
  numConsoleCharsWritten : Nat
  deriving DecidableEq, Repr

namespace Console

/-- `Console::Console`, of a file behind the keyboard. -/
def new (keyboard : List Byte) : Console := ⟨keyboard, [], false, eof, 0, 0, 0⟩

/-- `Console::CheckCharAvail`, and whether it calls the read handler. -/
def checkCharAvail (console : Console) (pollFile : Bool) : Except Fault (Console × Bool) :=
  if console.incoming ≠ eof ∨ pollFile = false then .ok (console, false)
  else match console.keyboard with
    -- The host says that a file at its end can be read, but `Read` asserts that it got a byte.
    | [] => .error .assertion
    | c :: rest => .ok ({ console with
        keyboard := rest
        incoming := c
        numConsoleCharsRead := console.numConsoleCharsRead + 1 }, true)

/-- `Console::WriteDone`, for an interrupt that has been scheduled. -/
def writeDone (console : Console) : Except Fault Console :=
  if 0 < console.scheduled then
    .ok { console with
      putBusy := false
      scheduled := console.scheduled - 1
      numConsoleCharsWritten := console.numConsoleCharsWritten + 1 }
  else .error .disabled

/-- `Console::GetChar`. -/
def getChar (console : Console) : Byte × Console :=
  (console.incoming, { console with incoming := eof })

/-- `Console::PutChar`. -/
def putChar (console : Console) (ch : Byte) : Except Fault Console :=
  if console.putBusy = false then
    .ok { console with
      display := console.display ++ [ch]
      putBusy := true
      scheduled := console.scheduled + 1 }
  else .error .assertion

end Console

namespace ConsoleTest

/-- The two semaphores. -/
structure Names where
  readAvail : Nat
  writeDone : Nat

/-- Where a thread goes on in `ConsoleTest`, once it is outside the primitives. -/
inductive Phase where
  /-- Not in it. -/
  | idle
  /-- It waits for a character to arrive. -/
  | arrive
  /-- It gets the character. -/
  | get
  /-- It puts the character. -/
  | put (ch : Byte)
  /-- It waits for the write to finish. -/
  | wait (ch : Byte)
  /-- It looks whether the character was a `q`. -/
  | check (ch : Byte)
  /-- It has returned, and `main` halts the machine. -/
  | quit
  deriving DecidableEq, Repr

/-- Is the thread outside of the routine? -/
def Phase.isIdle : Phase → Bool
  | .idle => true
  | _ => false

/-- The interrupts of the console, and whether there is something at the keyboard at a poll. -/
inductive Signal where
  | consoleReadPoll (pollFile : Bool)
  | consoleWriteDone
  deriving DecidableEq, Repr

/-- `'q'`. -/
def q : Byte := 0x71

/-- `ConsoleTest` is called by the main thread only. -/
def enter (main thread : Thread) (_ : Unit) (console : Console) :
    Except Fault (Outcome Console Phase) :=
  if thread = main then .ok ⟨console, none, .arrive⟩ else .error .disabled

/-- The statements of its loop. -/
def go (names : Names) (_ : Thread) (phase : Phase) (_ : Unit) (console : Console) :
    Except Fault (Outcome Console Phase) :=
  match phase with
  | .idle | .quit => .error .disabled
  | .arrive => .ok ⟨console, some (.p names.readAvail), .get⟩
  | .get =>
    let (ch, console) := console.getChar
    .ok ⟨console, none, .put ch⟩
  | .put ch => do
    let console ← console.putChar ch
    return ⟨console, none, .wait ch⟩
  | .wait ch => .ok ⟨console, some (.p names.writeDone), .check ch⟩
  | .check ch => .ok ⟨console, none, if ch = q then .quit else .arrive⟩

/-- `ConsoleReadPoll` and `ConsoleWriteDone`, with the handlers `ReadAvail` and `WriteDone`. -/
def interrupt (names : Names) (signal : Signal) (console : Console) :
    Except Fault (Console × Option Nat) :=
  match signal with
  | .consoleReadPoll pollFile => do
    let (console, came) ← console.checkCharAvail pollFile
    return (console, if came then some names.readAvail else none)
  | .consoleWriteDone => do
    let console ← console.writeDone
    return (console, some names.writeDone)

/-- The console test, with semaphores of its own. -/
def consoleTest (names : Names) (main : Thread) : Routines Console Phase Unit Unit Signal where
  owns object := object = .semaphore (.named names.readAvail) ||
    object = .semaphore (.named names.writeDone)
  idle := Phase.isIdle
  enter := enter main
  go := go names
  device := interrupt names

/-- The console and the semaphores have been made, and nothing has been read yet. -/
structure Init (names : Names) (main : Thread) (input : List Byte) (client : Client Console Phase) :
    Prop where
  made : (consoleTest names main).Made
    [(.semaphore (.named names.readAvail), 0), (.semaphore (.named names.writeDone), 0)] main
    client.kernel
  idle : ∀ thread, client.phase thread = .idle
  console : client.data = .new input

/-- What the echo of an input is: everything up to the first `q`. -/
def echo : List Byte → List Byte
  | [] => []
  | ch :: rest => if ch = q then [ch] else ch :: echo rest

end ConsoleTest

end Nachos
