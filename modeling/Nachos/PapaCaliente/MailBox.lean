import Mathlib.Data.Finset.Card
import Mathlib.Order.Interval.Finset.Nat
import Nachos.Lib.Runs
import Nachos.PapaCaliente.Collatz

/-! The version with messages: the potato goes round through one queue of the operating system. -/

namespace PapaCaliente.MailBox

/-- Where a process that plays stands in `persona`. -/
inductive Place where
  /-- In `recv`. -/
  | receiving
  /-- A message has come, and the potato lies in `ply_data.papa`. -/
  | holding (papa : Papa)
  /-- The potato is about to be sent on. -/
  | passing (papa : Papa)
  /-- The process has declared itself the winner and sends the potato on for the last time. -/
  | won (papa : Papa)
  /-- The loop is left, and a process that is alive tells `main`. -/
  | left (papa : Papa)
  /-- The process has ended. -/
  | ended
  deriving DecidableEq, Repr

/-- Where `main` stands after its last `fork`. -/
inductive MainPlace where
  /-- The potato is in its hands. -/
  | starting (papa : Papa)
  /-- In `recv`. -/
  | waiting
  | ended
  deriving DecidableEq, Repr

/-- The constants of a game: the players are the processes `1` to `players`. -/
structure Game where
  players : Nat
  rotacion : Int
  inhabited : 1 ≤ players
  turns : rotacion = -1 ∨ rotacion = 1

/-- All processes and the queue between them. -/
structure Ronda where
  /-- Messages with their types, the oldest first, until the queue is removed. -/
  queue : Option (List (Nat × Papa))
  place : Jugador → Place
  live : Jugador → Bool
  main : MainPlace
  /-- Who has declared itself the winner, in order. -/
  winners : List Jugador

namespace Game

variable (game : Game)

/-- The processes that play. -/
def jugadores : Finset Jugador := Finset.Icc 1 game.players

/-- `next_process`, as `main` computes it for a child. -/
def nextProcess (process : Jugador) : Jugador :=
  let next := process + game.rotacion
  if next = 0 then game.players else if next = game.players + 1 then 1 else next.toNat

/-- The state after the forks. The children can only wait for messages until then. -/
def start (value : SSize) : Ronda where
  queue := some []
  place := fun _ => .receiving
  live := fun _ => true
  main := .starting ⟨game.players, value, game.rotacion⟩
  winners := []

end Game

namespace Ronda

/-- A process goes on to another place. -/
def move (ronda : Ronda) (process : Jugador) (place : Place) : Ronda :=
  { ronda with place := fun other => if other = process then place else ronda.place other }

/-- `MailBox::send`; a message to a queue that is gone is lost, and the answer is -1. -/
def send (ronda : Ronda) (type : Nat) (papa : Papa) : Ronda × Bool :=
  match ronda.queue with
  | some messages => ({ ronda with queue := some (messages ++ [(type, papa)]) }, true)
  | none => (ronda, false)

/-- What `MailBox::recv` leaves in the buffer: the first message of the type, or zeros. -/
def recv (ronda : Ronda) (type : Nat) : Option (Papa × Ronda) :=
  match ronda.queue with
  | some messages =>
    (messages.find? fun message => message.1 = type).map fun message =>
      (message.2, { ronda with queue := some (messages.erase message) })
  | none => some (⟨0, 0, 0⟩, ronda)

/-- `MailBox::~MailBox`, as a process ends. -/
def removeQueue (ronda : Ronda) : Ronda := { ronda with queue := none }

/-- What a process does with the potato before it sends it on. -/
def act (ronda : Ronda) (process : Jugador) (papa : Papa) (random : SSize) : Ronda :=
  if ronda.live process then
    if papa.players = 1 then
      { ronda.move process (.won { papa with value := -1 }) with
        winners := ronda.winners ++ [process] }
    else
      let papa := { papa with value := collatz papa.value }
      if papa.value = 1 then
        -- It explodes.
        { ronda.move process (.passing { papa with players := papa.players - 1, value := random })
          with live := fun other => if other = process then false else ronda.live other }
      else ronda.move process (.passing papa)
  else ronda.move process (.passing papa)

end Ronda

/-- What can happen next. -/
inductive Action where
  /-- `main` sends the first message. -/
  | start (first : Jugador)
  /-- A process gets a message. -/
  | recv (process : Jugador)
  /-- A process looks at the potato; the number is what `rand_r` would give it. -/
  | act (process : Jugador) (random : SSize)
  /-- A process sends the potato on. -/
  | send (process : Jugador)
  /-- A process that has left the loop ends. -/
  | finish (process : Jugador)
  /-- `main` gets the message of the winner and ends. -/
  | finishMain
  deriving DecidableEq, Repr

/-- Ways in which an action is not possible. -/
inductive Fault where
  | disabled
  deriving DecidableEq, Repr

/-- One action of one process. -/
def step (game : Game) (ronda : Ronda) : Action → Except Fault Ronda
  | .start first =>
    match ronda.main with
    | .starting papa =>
      if first ∈ game.jugadores then .ok { (ronda.send first papa).1 with main := .waiting }
      else .error .disabled
    | _ => .error .disabled
  | .recv process =>
    if process ∈ game.jugadores ∧ ronda.place process = .receiving then
      match ronda.recv process with
      | some (papa, ronda) => .ok (ronda.move process (.holding papa))
      | none => .error .disabled
    else .error .disabled
  | .act process random =>
    match ronda.place process with
    | .holding papa => .ok (ronda.act process papa random)
    | _ => .error .disabled
  | .send process =>
    match ronda.place process with
    | .passing papa =>
      let (ronda, sent) := ronda.send (game.nextProcess process) papa
      -- A process that is out of the game ends when the queue is gone.
      .ok (ronda.move process (if ronda.live process || sent then .receiving else .left papa))
    | .won papa =>
      .ok ((ronda.send (game.nextProcess process) papa).1.move process (.left papa))
    | _ => .error .disabled
  | .finish process =>
    match ronda.place process with
    | .left papa =>
      let ronda := if ronda.live process then (ronda.send (game.players + 1) papa).1 else ronda
      .ok (ronda.removeQueue.move process .ended)
    | _ => .error .disabled
  | .finishMain =>
    match ronda.main, ronda.recv (game.players + 1) with
    | .waiting, some (_, ronda) => .ok { ronda.removeQueue with main := .ended }
    | _, _ => .error .disabled

end PapaCaliente.MailBox
