import Nachos.Lib.Runs
import Nachos.Lib.Sorted
import Nachos.Machine.Translate

/-! The simulation of hardware interrupts: a clock, and a list of interrupts sorted by time. -/

namespace Nachos

/-- `SystemTick`. -/
def systemTick : Int := 10

/-- `UserTick`. -/
def userTick : Int := 1

/-- `IntStatus`. -/
inductive IntStatus where
  | intOff
  | intOn
  deriving DecidableEq, Repr

/-- `MachineStatus`. -/
inductive MachineStatus where
  | idleMode
  | systemMode
  | userMode
  deriving DecidableEq, Repr

/-- `IntType`. -/
inductive IntType where
  | timerInt
  | diskInt
  | consoleWriteInt
  | consoleReadInt
  | networkSendInt
  | networkRecvInt
  deriving DecidableEq, Repr

/--
`PendingInterrupt`, without the handler and its argument.

The object has a serial number in place of an address, and remembers the time that was asked for.
-/
structure PendingInterrupt where
  serial : Nat
  /-- The time `Schedule` was called plus `fromNow`, as a number without bound. -/
  due : Int
  when : Int
  type : IntType
  deriving DecidableEq, Repr

/-- What an interrupt handler does that the simulation notices. -/
inductive HandlerCall where
  | schedule (fromNow : Int) (type : IntType)
  | yieldOnReturn
  deriving DecidableEq, Repr

/-- `Interrupt`, with the clock of `Statistics`. -/
structure Interrupt where
  level : IntStatus
  /-- Each element of the list has its key next to it. -/
  pending : List (PendingInterrupt × Int)
  inHandler : Bool
  yieldOnReturn : Bool
  status : MachineStatus
  totalTicks : Int
  /-- `Halt` has been called. -/
  halted : Bool
  /-- The number of interrupts that were scheduled so far. -/
  created : Nat
  /-- The interrupts whose handlers were invoked so far, with the time, in order. -/
  invoked : List (PendingInterrupt × Int)
  deriving DecidableEq, Repr

/-- An `int` has 32 bits, and sums wrap around. -/
def asInt (number : Int) : Int := number.bmod (2 ^ 32)

namespace Interrupt

/-- `Interrupt::Interrupt`, when the clock shows zero. -/
def new : Interrupt where
  level := .intOff
  pending := []
  inHandler := false
  yieldOnReturn := false
  status := .systemMode
  totalTicks := 0
  halted := false
  created := 0
  invoked := []

/-- `Interrupt::Schedule`. -/
def schedule (machine : Interrupt) (fromNow : Int) (type : IntType) : Except Fault Interrupt :=
  let when := asInt (machine.totalTicks + fromNow)
  let toOccur : PendingInterrupt := ⟨machine.created, machine.totalTicks + fromNow, when, type⟩
  if 0 < fromNow then
    .ok { machine with
      pending := Sorted.sortedInsert toOccur when machine.pending
      created := machine.created + 1 }
  else .error .assertion

/-- The body of a handler, one call after the other. -/
def handle : Interrupt → List HandlerCall → Except Fault Interrupt
  | machine, [] => .ok machine
  | machine, .schedule fromNow type :: rest => do
    let machine ← machine.schedule fromNow type
    machine.handle rest
  | machine, .yieldOnReturn :: rest => { machine with yieldOnReturn := true }.handle rest

/-- The end of `Interrupt::CheckIfDue`, which calls the handler. -/
def invoke (machine : Interrupt) (toOccur : PendingInterrupt) (calls : List HandlerCall) :
    Except Fault Interrupt := do
  let old := machine.status
  let machine ← { machine with
    inHandler := true
    status := .systemMode
    invoked := machine.invoked ++ [(toOccur, machine.totalTicks)] }.handle calls
  return { machine with status := old, inHandler := false }

/-- `Interrupt::CheckIfDue`; the calls are those of the handler, if one is invoked. -/
def checkIfDue (machine : Interrupt) (advanceClock : Bool) (calls : List HandlerCall) :
    Except Fault (Bool × Interrupt) :=
  if machine.level = .intOff then
    match machine.pending with
    | [] => .ok (false, machine)
    | (toOccur, when) :: rest =>
      if !advanceClock && machine.totalTicks < when then
        -- Not time yet, put it back.
        .ok (false, { machine with pending := Sorted.sortedInsert toOccur when rest })
      else
        let machine := { machine with
          pending := rest
          totalTicks := max machine.totalTicks when }
        if machine.status = .idleMode ∧ toOccur.type = .timerInt ∧ rest.isEmpty then
          .ok (false, { machine with pending := Sorted.sortedInsert toOccur when rest })
        else do
          let machine ← machine.invoke toOccur calls
          return (true, machine)
  else .error .assertion

/--
The loop `while (CheckIfDue(false))`.

Every list of calls belongs to one handler, in the order in which the handlers are invoked.
-/
def checkAll : Interrupt → List (List HandlerCall) → Except Fault Interrupt
  | machine, [] => do
    match ← machine.checkIfDue false [] with
    | (false, machine) => return machine
    | (true, _) => .error .disabled
  | machine, calls :: rest => do
    match ← machine.checkIfDue false calls with
    | (true, machine) => machine.checkAll rest
    | (false, _) => .error .disabled

/-- How far `OneTick` advances the clock. -/
def tick (machine : Interrupt) : Int :=
  if machine.status = .systemMode then systemTick else userTick

/--
`Interrupt::OneTick`, up to the call of `Yield`.

What other threads do during the `Yield`, and the change of `status` after it, are later actions.
-/
def oneTick (machine : Interrupt) (handlers : List (List HandlerCall)) :
    Except Fault Interrupt := do
  let machine ← { machine with
    totalTicks := asInt (machine.totalTicks + machine.tick)
    level := .intOff }.checkAll handlers
  let machine := { machine with level := .intOn }
  if machine.yieldOnReturn then
    return { machine with yieldOnReturn := false, status := .systemMode }
  else return machine

/-- `Interrupt::SetLevel`. -/
def setLevel (machine : Interrupt) (now : IntStatus) (handlers : List (List HandlerCall)) :
    Except Fault Interrupt :=
  if now = .intOff ∨ machine.inHandler = false then
    let old := machine.level
    let machine := { machine with level := now }
    if now = .intOn ∧ old = .intOff then machine.oneTick handlers
    else if handlers = [] then .ok machine
    else .error .disabled
  else .error .assertion

/-- `Interrupt::Idle`. -/
def idle (machine : Interrupt) : List (List HandlerCall) → Except Fault Interrupt
  | [] => do
    match ← { machine with status := .idleMode }.checkIfDue true [] with
    | (false, machine) => return { machine with halted := true }
    | (true, _) => .error .disabled
  | calls :: rest => do
    match ← { machine with status := .idleMode }.checkIfDue true calls with
    | (true, machine) =>
      let machine ← machine.checkAll rest
      return { machine with yieldOnReturn := false, status := .systemMode }
    | (false, _) => .error .disabled

/-- The calls that the rest of the system makes. -/
inductive Action where
  /-- A device schedules an interrupt outside of a handler. -/
  | schedule (fromNow : Int) (type : IntType)
  | setLevel (now : IntStatus) (handlers : List (List HandlerCall))
  /-- `Machine::Run` has executed an instruction. -/
  | oneTick (handlers : List (List HandlerCall))
  /-- `Thread::Sleep` finds no thread that is ready. -/
  | idle (handlers : List (List HandlerCall))
  /-- The machine enters or leaves the kernel. -/
  | setStatus (user : Bool)
  | yieldOnReturn
  deriving DecidableEq, Repr

/-- One call. After `Halt` there are none. -/
def step (machine : Interrupt) (action : Action) : Except Fault Interrupt :=
  if machine.halted then .error .disabled
  else match action with
    | .schedule fromNow type => machine.schedule fromNow type
    | .setLevel now handlers => machine.setLevel now handlers
    | .oneTick handlers => machine.oneTick handlers
    | .idle handlers => machine.idle handlers
    | .setStatus user => .ok { machine with status := if user then .userMode else .systemMode }
    | .yieldOnReturn => .ok { machine with yieldOnReturn := true }

end Interrupt

end Nachos
