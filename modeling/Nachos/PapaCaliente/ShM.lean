import Mathlib.Logic.Function.Basic
import Nachos.Lib.Runs
import Nachos.PapaCaliente.Juego

/-! The version with shared memory: who drops out stays in the circle and lets the potato through. -/

namespace PapaCaliente.ShM

/-- Where a process that plays stands in `persona`. -/
inductive Place where
  /-- In `Wait` on its own semaphore. -/
  | waiting
  /-- The potato is its own. -/
  | holding
  /-- It still has semaphores to signal, and leaves the loop afterwards or not. -/
  | signalling (semaphores : List Nat) (leaves : Bool)
  /-- The loop is left, and a process that is alive tells `main`. -/
  | left
  | ended
  deriving DecidableEq, Repr

/-- Where `main` stands after its last `fork`. -/
inductive MainPlace where
  | starting
  | waiting
  | ended
  deriving DecidableEq, Repr

/-- All processes and what they share. -/
structure Memoria where
  /-- The values of the semaphores, until `main` removes them. -/
  semaphores : Option (Nat → Nat)
  /-- What is added to the semaphore of a process when it exits. -/
  undo : Jugador → Nat
  papa : Papa
  place : Jugador → Place
  live : Jugador → Bool
  main : MainPlace
  eventos : List Evento

end ShM

namespace Juego

variable (juego : Juego)

/-- `next_process`, as `main` computes it for a child. -/
def nextProcess (process : Jugador) : Jugador :=
  let next := (process : Int) + juego.rotacion
  if next = -1 then juego.players - 1 else next.toNat % juego.players

/-- The state after the forks, with all semaphores at zero. -/
def memoria : ShM.Memoria where
  semaphores := some fun _ => 0
  undo := fun _ => 0
  papa := ⟨juego.players, juego.value, juego.rotacion⟩
  place := fun _ => .waiting
  live := fun _ => true
  main := .starting
  eventos := []

end Juego

namespace ShM

namespace Memoria

variable (memoria : Memoria)

/-- A process goes on to another place. -/
def move (process : Jugador) (place : Place) : Memoria :=
  { memoria with place := Function.update memoria.place process place }

/-- Add to a semaphore, if there are any. -/
def add (semaphore amount : Nat) : Memoria :=
  { memoria with
    semaphores := memoria.semaphores.map fun values =>
      Function.update values semaphore (values semaphore + amount) }

/-- `Semaphore::Signal`. -/
def signal (semaphore : Nat) : Memoria := memoria.add semaphore 1

/-- `Semaphore::Wait` with `SEM_UNDO`; it fails at once when there are no semaphores. -/
def wait (process : Jugador) (semaphore : Nat) : Option Memoria :=
  match memoria.semaphores with
  | none => some memoria
  | some values =>
    if values semaphore = 0 then none
    else
      some { memoria with
        semaphores := some (Function.update values semaphore (values semaphore - 1))
        undo := Function.update memoria.undo process (memoria.undo process + 1) }

/-- What a process does between `Wait` and the first `Signal`. -/
def persona (juego : Juego) (process : Jugador) : Memoria :=
  let next := juego.nextProcess process
  if memoria.live process then
    if memoria.papa.players = 1 then
      { memoria.move process (.signalling [next] true) with
        papa := { memoria.papa with value := -1 }
        eventos := memoria.eventos ++ [.ganador process] }
    else
      let papa : Papa := { memoria.papa with value := collatz memoria.papa.value }
      if papa.value = 1 then
        -- It explodes.
        { memoria.move process (.signalling [next] false) with
          live := Function.update memoria.live process false
          papa := { papa with players := papa.players - 1, value := juego.reseed process }
          eventos := memoria.eventos ++ [.fuera process] }
      else { memoria.move process (.signalling [next] false) with papa }
  else if memoria.papa.value.slt 0 then
    memoria.move process (.signalling [process, next] true)
  else memoria.move process (.signalling [next] false)

end Memoria

/-- What can happen next. -/
inductive Action where
  /-- `main` signals the first process. -/
  | start
  /-- A process comes back from `Wait`. -/
  | wait (process : Jugador)
  /-- A process looks at the potato. -/
  | persona (process : Jugador)
  /-- A process makes its next `Signal`. -/
  | signal (process : Jugador)
  /-- A process that has left the loop exits. -/
  | exit (process : Jugador)
  /-- `main` comes back from its `Wait` and removes the semaphores. -/
  | exitMain
  deriving DecidableEq, Repr

/-- Ways in which an action is not possible. -/
inductive Fault where
  | disabled
  deriving DecidableEq, Repr

/-- One action of one process. -/
def step (juego : Juego) (memoria : Memoria) : Action → Except Fault Memoria
  | .start =>
    match memoria.main with
    | .starting => .ok { memoria.signal juego.first with main := .waiting }
    | _ => .error .disabled
  | .wait process =>
    if process < juego.players ∧ memoria.place process = .waiting then
      match memoria.wait process process with
      | some memoria => .ok (memoria.move process .holding)
      | none => .error .disabled
    else .error .disabled
  | .persona process =>
    match memoria.place process with
    | .holding => .ok (memoria.persona juego process)
    | _ => .error .disabled
  | .signal process =>
    match memoria.place process with
    | .signalling (semaphore :: others) leaves =>
      .ok ((memoria.signal semaphore).move process
        (if others = [] then if leaves then .left else .waiting
          else .signalling others leaves))
    | _ => .error .disabled
  | .exit process =>
    match memoria.place process with
    | .left =>
      let told := if memoria.live process then memoria.signal juego.players else memoria
      .ok ((told.add process (memoria.undo process)).move process .ended)
    | _ => .error .disabled
  | .exitMain =>
    match memoria.main, memoria.wait juego.players juego.players with
    | .waiting, some memoria => .ok { memoria with semaphores := none, main := .ended }
    | _, _ => .error .disabled

/-- The states that some order of the actions leads to. -/
def Reached (juego : Juego) : Memoria → Prop :=
  Runs.Reachable (step juego) (fun memoria => memoria = juego.memoria) fun _ _ => True

end ShM

end PapaCaliente
