import Mathlib.Logic.Function.Basic
import Nachos.Lib.Runs
import Nachos.PapaCaliente.Juego

/-! The version with threads: who drops out is taken out of a ring with links in both directions. -/

namespace PapaCaliente.PThreads

/-- Where a thread stands in `simulation`. -/
inductive Place where
  /-- In `wait` on its own mutex. -/
  | waiting
  /-- The potato is its own. -/
  | holding
  /-- It resumes its `siguiente`, and leaves the loop or not. -/
  | signalling (leaves : Bool)
  | ended
  deriving DecidableEq, Repr

/-- Where `main` stands after the last `run`. -/
inductive MainPlace where
  | starting
  | joining (hilo : Jugador)
  | signalling (hilo : Jugador)
  | ended
  deriving DecidableEq, Repr

/-- All threads and what they share. -/
structure Simulacion where
  /-- The mutexes that are locked. -/
  locked : Jugador → Bool
  miembros : Nat
  value : SSize
  siguiente : Jugador → Jugador
  anterior : Jugador → Jugador
  place : Jugador → Place
  main : MainPlace
  eventos : List Evento

end PThreads

namespace Juego

variable (juego : Juego)

/-- The first `siguiente` of a thread; `%` takes the sign of what it divides. -/
def siguiente (hilo : Jugador) : Jugador :=
  let siguiente := ((hilo : Int) + juego.rotacion).tmod juego.players
  if siguiente = -1 then juego.players - 1 else siguiente.toNat

/-- The first `anterior` of a thread. -/
def anterior (hilo : Jugador) : Jugador :=
  let anterior := ((hilo : Int) - juego.rotacion).tmod juego.players
  if anterior = -1 then juego.players - 1 else anterior.toNat

/-- The state after all threads are running, with every mutex locked by `main`. -/
def simulacion : PThreads.Simulacion where
  locked := fun _ => true
  miembros := juego.players
  value := juego.value
  siguiente := juego.siguiente
  anterior := juego.anterior
  place := fun _ => .waiting
  main := .starting
  eventos := []

end Juego

namespace PThreads

namespace Simulacion

variable (simulacion : Simulacion)

/-- A thread goes on to another place. -/
def move (hilo : Jugador) (place : Place) : Simulacion :=
  { simulacion with place := Function.update simulacion.place hilo place }

/-- `Pthread::signal`. -/
def signal (hilo : Jugador) : Simulacion :=
  { simulacion with locked := Function.update simulacion.locked hilo false }

/-- `Pthread::wait`, when the mutex is not locked. -/
def wait (hilo : Jugador) : Simulacion :=
  { simulacion with locked := Function.update simulacion.locked hilo true }

/-- What a thread does between `wait` and `signal`. -/
def simulation (juego : Juego) (hilo : Jugador) : Simulacion :=
  -- The potato does not change when one member is left.
  let value := if simulacion.miembros = 1 then simulacion.value else collatz simulacion.value
  if simulacion.miembros = 1 ∨ value = 1 then
    let miembros := simulacion.miembros - 1
    if miembros = 1 then
      { simulacion.move hilo (.signalling true) with
        value, miembros, eventos := simulacion.eventos ++ [.fuera hilo] }
    else if miembros = 0 then
      { simulacion.move hilo .ended with
        value, miembros, eventos := simulacion.eventos ++ [.ganador hilo] }
    else
      let siguiente := simulacion.siguiente hilo
      let anterior := simulacion.anterior hilo
      { simulacion.move hilo (.signalling true) with
        value := juego.reseed hilo
        miembros
        siguiente := Function.update simulacion.siguiente anterior siguiente
        anterior := Function.update simulacion.anterior siguiente anterior
        eventos := simulacion.eventos ++ [.fuera hilo] }
  else { simulacion.move hilo (.signalling false) with value }

end Simulacion

/-- What can happen next. -/
inductive Action where
  /-- `main` resumes the first thread. -/
  | start
  /-- A thread locks its mutex. -/
  | wait (hilo : Jugador)
  /-- A thread plays. -/
  | simulation (hilo : Jugador)
  /-- A thread resumes the next one. -/
  | signal (hilo : Jugador)
  /-- `main` joins a thread that has ended. -/
  | join
  /-- `main` unlocks the mutex of the thread it has joined. -/
  | signalJoined
  deriving DecidableEq, Repr

/-- Ways in which an action is not possible. -/
inductive Fault where
  | disabled
  deriving DecidableEq, Repr

/-- One action of one thread. -/
def step (juego : Juego) (simulacion : Simulacion) : Action → Except Fault Simulacion
  | .start =>
    match simulacion.main with
    | .starting => .ok { simulacion.signal juego.first with main := .joining 0 }
    | _ => .error .disabled
  | .wait hilo =>
    if hilo < juego.players ∧ simulacion.place hilo = .waiting ∧ simulacion.locked hilo = false then
      .ok ((simulacion.wait hilo).move hilo .holding)
    else .error .disabled
  | .simulation hilo =>
    match simulacion.place hilo with
    | .holding => .ok (simulacion.simulation juego hilo)
    | _ => .error .disabled
  | .signal hilo =>
    match simulacion.place hilo with
    | .signalling leaves =>
      .ok ((simulacion.signal (simulacion.siguiente hilo)).move hilo
        (if leaves then .ended else .waiting))
    | _ => .error .disabled
  | .join =>
    match simulacion.main with
    | .joining hilo =>
      if simulacion.place hilo = .ended then .ok { simulacion with main := .signalling hilo }
      else .error .disabled
    | _ => .error .disabled
  | .signalJoined =>
    match simulacion.main with
    | .signalling hilo =>
      .ok { simulacion.signal hilo with
        main := if hilo + 1 < juego.players then .joining (hilo + 1) else .ended }
    | _ => .error .disabled

/-- The states that some order of the actions leads to. -/
def Reached (juego : Juego) : Simulacion → Prop :=
  Runs.Reachable (step juego) (fun simulacion => simulacion = juego.simulacion) fun _ _ => True

end PThreads

end PapaCaliente
