import Nachos.Lib.Runs
import Mathlib.Data.List.FinRange

/-! The monitor of the baboons: a mutex, one condition variable for each rope, and two counters. -/

namespace Babuinos

/-- The number of ropes, `N`. -/
def N : Nat := 10

/-- The number of baboons that may cross, `B`. -/
def B : Int := 40

/-- A baboon, which is one call of `Babuino::run`. -/
abbrev Babuino := Nat

/-- A rope, one of `0` to `N - 1`. -/
abbrev Cuerda := Fin N

/-- There is a rope. -/
theorem N_pos : 0 < N := by decide

/-- Where a baboon is. -/
inductive Phase where
  /-- It has not called `run` yet. -/
  | outside
  /-- It wants the mutex for the first time. -/
  | arriving (cuerda : Cuerda)
  /-- It holds the mutex and is about to be counted. -/
  | entered (cuerda : Cuerda)
  /-- It is blocked in `wait`, without the mutex. -/
  | waiting (cuerda : Cuerda)
  /-- It has been woken and wants the mutex again. -/
  | woken (cuerda : Cuerda)
  /-- It holds the mutex and has nothing left to do. -/
  | leaving (cuerda : Cuerda)
  /-- It has returned from `run`, and crosses. -/
  | returned
  deriving DecidableEq, Repr

/-- What is done to the counters, in the order in which it happens. -/
inductive Event where
  /-- A baboon counted itself at its rope. -/
  | arrived (babuino : Babuino) (cuerda : Cuerda)
  /-- An arrival found `B` baboons and released a rope. -/
  | released (cuerda : Cuerda)
  /-- A baboon returned from `run`. -/
  | returned (babuino : Babuino)
  deriving DecidableEq, Repr

/-- The counters of `SharedData`, for any number of ropes. -/
structure Cuentas (ropes : Nat) where
  count : Fin ropes → Int
  countBabuinos : Int

namespace Cuentas

variable {ropes : Nat}

/-- No baboon has arrived. -/
def new : Cuentas ropes := ⟨fun _ => 0, 0⟩

/-- A baboon counts itself at its rope. -/
def arrive (cuentas : Cuentas ropes) (cuerda : Fin ropes) : Cuentas ropes where
  count := fun other => if other = cuerda then cuentas.count cuerda + 1 else cuentas.count other
  countBabuinos := cuentas.countBabuinos + 1

/-- The rope with the most baboons, the first one if there are several. -/
def mayor (positive : 0 < ropes) (count : Fin ropes → Int) : Fin ropes :=
  (List.finRange ropes).foldl (fun mayor i => if count mayor < count i then i else mayor) ⟨0, positive⟩

/-- The counters forget the baboons of a rope. -/
def release (cuentas : Cuentas ropes) (cuerda : Fin ropes) : Cuentas ropes where
  countBabuinos := cuentas.countBabuinos - cuentas.count cuerda
  count := fun other => if other = cuerda then 0 else cuentas.count other

end Cuentas

/-- `SharedData`, with what every baboon is doing. -/
structure SharedData extends Cuentas N where
  /-- The baboon that holds `canAcces`. -/
  canAcces : Option Babuino
  phase : Babuino → Phase
  /-- What happened so far; no baboon reads it. -/
  history : List Event

namespace SharedData

/-- The data `main` starts the baboons with. -/
def new : SharedData where
  toCuentas := .new
  canAcces := none
  phase := fun _ => .outside
  history := []

/-- A baboon goes on to another place. -/
def move (data : SharedData) (babuino : Babuino) (phase : Phase) : SharedData :=
  { data with phase := fun other => if other = babuino then phase else data.phase other }

/-- The rope with the most baboons of the `N` ropes. -/
def mayor (count : Cuerda → Int) : Cuerda := Cuentas.mayor N_pos count

/-- `ropeWaiting[cuerda].notify_all()`. -/
def notifyAll (data : SharedData) (cuerda : Cuerda) : SharedData :=
  { data with phase := fun babuino =>
      if data.phase babuino = .waiting cuerda then .woken cuerda else data.phase babuino }

/-- `ropeWaiting[cuerda].wait(babuinoLock)`, up to the point where the baboon is blocked. -/
def wait (data : SharedData) (babuino : Babuino) (cuerda : Cuerda) : SharedData :=
  { data.move babuino (.waiting cuerda) with canAcces := none }

/-- The baboon counts itself. -/
def arrive (data : SharedData) (babuino : Babuino) (cuerda : Cuerda) : SharedData :=
  { data with
    toCuentas := data.toCuentas.arrive cuerda
    history := data.history ++ [.arrived babuino cuerda] }

/-- Release a rope: everybody there is woken, and the counters forget them. -/
def release (data : SharedData) (cuerda : Cuerda) : SharedData :=
  { data.notifyAll cuerda with
    toCuentas := data.toCuentas.release cuerda
    history := data.history ++ [.released cuerda] }

/--
The body of `Babuino::run` after the constructor of `unique_lock`.

It ends in a `wait`, or where the destructor of the lock comes next. All of it is done with the
mutex held.
-/
def body (data : SharedData) (babuino : Babuino) (cuerda : Cuerda) : SharedData :=
  let data := data.arrive babuino cuerda
  if data.countBabuinos = B then
    let freed := mayor data.count
    let data := data.release freed
    if freed ≠ cuerda then data.wait babuino cuerda else data.move babuino (.leaving cuerda)
  else data.wait babuino cuerda

end SharedData

/-- What can happen next. -/
inductive Action where
  /-- A new thread calls `run`. -/
  | run (babuino : Babuino) (cuerda : Cuerda)
  /-- The constructor of `unique_lock` gets the mutex. -/
  | lock (babuino : Babuino)
  /-- The baboon that holds the mutex goes through the body. -/
  | body (babuino : Babuino)
  /-- A `wait` ends although nobody has notified its condition variable. -/
  | spurious (babuino : Babuino)
  /-- A baboon that was woken gets the mutex back. -/
  | relock (babuino : Babuino)
  /-- The destructor of `unique_lock` gives the mutex back, and `run` returns. -/
  | unlock (babuino : Babuino)
  deriving DecidableEq, Repr

/-- Ways in which an action is not possible. -/
inductive Fault where
  | disabled
  deriving DecidableEq, Repr

/-- One action of one baboon. -/
def step (data : SharedData) : Action → Except Fault SharedData
  | .run babuino cuerda =>
    match data.phase babuino with
    | .outside => .ok (data.move babuino (.arriving cuerda))
    | _ => .error .disabled
  | .lock babuino =>
    match data.phase babuino, data.canAcces with
    | .arriving cuerda, none =>
      .ok { data.move babuino (.entered cuerda) with canAcces := some babuino }
    | _, _ => .error .disabled
  | .body babuino =>
    match data.phase babuino with
    | .entered cuerda => .ok (data.body babuino cuerda)
    | _ => .error .disabled
  | .spurious babuino =>
    match data.phase babuino with
    | .waiting cuerda => .ok (data.move babuino (.woken cuerda))
    | _ => .error .disabled
  | .relock babuino =>
    match data.phase babuino, data.canAcces with
    | .woken cuerda, none =>
      .ok { data.move babuino (.leaving cuerda) with canAcces := some babuino }
    | _, _ => .error .disabled
  | .unlock babuino =>
    match data.phase babuino with
    | .leaving _ => .ok { data.move babuino .returned with
        canAcces := none
        history := data.history ++ [.returned babuino] }
    | _ => .error .disabled

end Babuinos
