import Nachos.Machine.Mipssim
import Nachos.Machine.TranslateLaws

/-! An instruction that raises an exception can be executed again. -/

namespace Nachos

namespace Machine

/-- A register once the load on its way has been finished. -/
def landed (machine : Machine) (register : Nat) : BitVec 32 :=
  if register = 0 then 0
  else if register = (machine.registers loadReg).toNat then machine.registers loadValueReg
  else machine.registers register

/-- What an exception leaves as it was, so that the kernel can have the instruction repeated. -/
structure Restartable (machine after : Machine) : Prop where
  pc : after.registers pcReg = machine.registers pcReg
  nextPC : after.registers nextPCReg = machine.registers nextPCReg
  prevPC : after.registers prevPCReg = machine.registers prevPCReg
  hi : after.registers hiReg = machine.registers hiReg
  lo : after.registers loReg = machine.registers loReg
  memory : after.mainMemory = machine.mainMemory
  general : ∀ register < numGPRegs, after.registers register = machine.landed register
  idle : after.registers loadReg = 0

/-- The machine within an instruction: until the last reference only the table changes. -/
structure Midway (machine now : Machine) : Prop where
  pending : (machine.registers loadReg).toNat < numGPRegs
  registers : now.registers = machine.registers
  memory : now.mainMemory = machine.mainMemory

/-- How a computation ends: with a good value, with an exception after which the instruction can be
repeated, or not at all. -/
def Ends {α : Type} (machine : Machine) (good : α → Prop) : Except Stop α → Prop
  | .ok value => good value
  | .error (.raised _ after) => machine.Restartable after
  | .error _ => True

/-- A delayed load with its target inside the register file ends. -/
theorem delayedLoad_ok {machine : Machine}
    (pending : (machine.registers loadReg).toNat < numGPRegs) (nextReg nextValue : BitVec 32) :
    ∃ after, machine.delayedLoad nextReg nextValue = .ok after ∧
      after.mainMemory = machine.mainMemory ∧ after.registers loadReg = nextReg ∧
      ∀ register < loadReg, after.registers register = machine.landed register := by
  have inside : (machine.registers loadReg).toNat < numTotalRegs := Nat.lt_trans pending (by decide)
  refine ⟨_, if_pos inside, rfl, ?_, ?_⟩
  · simp [setRegister, loadReg, loadValueReg]
  · -- Behind the register file's targets stand the two registers that are assigned as well.
    intro register small
    have apart : register ≠ loadReg ∧ register ≠ loadValueReg := by
      simp only [loadReg, loadValueReg] at small ⊢
      omega
    rw [landed]
    by_cases zero : register = 0
    · simp [setRegister, zero]
    · simp only [setRegister, Function.update_of_ne zero, Function.update_of_ne apart.1,
        Function.update_of_ne apart.2, if_neg zero, Function.update_apply]

/-- With such a target `RaiseException` finishes the load and reaches the handler of the kernel. -/
theorem raiseException_raised {α : Type} {machine : Machine}
    (pending : (machine.registers loadReg).toNat < numGPRegs) (which : ExceptionType)
    (badVAddr : BitVec 32) :
    ∃ after, (machine.raiseException which badVAddr : Except Stop α) =
        .error (.raised which after) ∧
      after.mainMemory = machine.mainMemory ∧ after.registers loadReg = 0 ∧
      ∀ register < loadReg, after.registers register = machine.landed register := by
  -- The bad address is written behind all the registers that are looked at here.
  have keeps (register : Nat) (small : register < badVAddrReg) :
      (machine.setRegister badVAddrReg badVAddr).registers register = machine.registers register :=
    setRegister_of_ne machine (Nat.ne_of_lt small) _
  have target : ((machine.setRegister badVAddrReg badVAddr).registers loadReg).toNat < numGPRegs := by
    rwa [keeps loadReg (by decide)]
  obtain ⟨after, done, memory, idle, general⟩ := delayedLoad_ok target 0 0
  refine ⟨after, by rw [raiseException, done]; rfl, memory, idle, fun register small => ?_⟩
  rw [general register small, landed, landed, keeps loadReg (by decide),
    keeps loadValueReg (by decide), keeps register (Nat.lt_trans small (by decide))]

namespace Ends

variable {α β : Type} {machine now : Machine} {good : α → Prop}

/-- A computation in two parts, where the second part starts from what is good for the first. -/
theorem bind {good' : β → Prop} {first : Except Stop α} {next : α → Except Stop β}
    (begun : machine.Ends good first)
    (continued : ∀ value, good value → machine.Ends good' (next value)) :
    machine.Ends good' (first >>= next) := by
  -- Only a first part that ends well is followed by the second one.
  cases first with
  | ok value => exact continued value begun
  | error stop => cases stop <;> exact begun

/-- A test decides which of two computations goes on. -/
theorem ite {condition : Prop} [Decidable condition] {first second : Except Stop α}
    (holds : machine.Ends good first) (fails : machine.Ends good second) :
    machine.Ends good (if condition then first else second) := by
  split
  · exact holds
  · exact fails

/-- An exception finishes the load that was on its way, and changes nothing else. -/
theorem raiseException (midway : machine.Midway now) {which : ExceptionType}
    {badVAddr : BitVec 32} : machine.Ends good (now.raiseException which badVAddr) := by
  have pending : (now.registers loadReg).toNat < numGPRegs := by
    rw [midway.registers]
    exact midway.pending
  obtain ⟨after, done, memory, idle, general⟩ := @raiseException_raised α now pending which badVAddr
  have lands (register : Nat) (small : register < loadReg) :
      after.registers register = machine.landed register := by
    rw [general register small, landed, landed, midway.registers]
  -- The registers above the general ones are no targets of a load.
  have special (register : Nat) (special : numGPRegs ≤ register) (small : register < loadReg) :
      after.registers register = machine.registers register := by
    have positive : 0 < numGPRegs := by decide
    have pending := midway.pending
    rw [lands register small, landed, if_neg (by omega), if_neg (by omega)]
  rw [done]
  exact {
    pc := special pcReg (by decide) (by decide)
    nextPC := special nextPCReg (by decide) (by decide)
    prevPC := special prevPCReg (by decide) (by decide)
    hi := special hiReg (by decide) (by decide)
    lo := special loReg (by decide) (by decide)
    memory := memory.trans midway.memory
    general := fun register small => lands register (Nat.lt_trans small (by decide))
    idle := idle }

/-- A read that succeeds leaves the machine within the same instruction. -/
theorem readMem (midway : machine.Midway now) {addr : BitVec 32} {size : Nat} :
    machine.Ends (fun read => machine.Midway read.2) (now.readMem addr size) := by
  -- Either the table is touched, or the translation has raised the exception.
  rw [Machine.readMem]
  split
  · exact ⟨midway.pending, midway.registers, midway.memory⟩
  · exact raiseException midway
  · trivial

theorem writeMem (midway : machine.Midway now) {addr : BitVec 32} {size : Nat}
    {value : BitVec 32} : machine.Ends (fun _ => True) (now.writeMem addr size value) := by
  -- What a write changes does not matter, because nothing follows it.
  rw [Machine.writeMem]
  split
  · trivial
  · exact raiseException midway
  · trivial

/-- A delayed load raises no exception, and leaves the next load on its way. -/
theorem delayedLoad {nextReg nextValue : BitVec 32} :
    machine.Ends (fun after => after.registers loadReg = nextReg)
      (now.delayedLoad nextReg nextValue) := by
  rw [Machine.delayedLoad]
  dsimp only
  split
  · -- The target may be any register, since the next load is noted last.
    simp [Ends, setRegister, loadReg, loadValueReg]
  · trivial

end Ends

variable {machine now : Machine}

/-- No instruction writes a register or a byte before the last of its exceptions, and what it loads is
for a general register. -/
theorem ends_execute (midway : machine.Midway now) (instr : Instruction) :
    machine.Ends (fun outcome => outcome.nextLoadReg.toNat < numGPRegs) (now.execute instr) := by
  obtain ⟨opCode, rs, rt, rd, extra⟩ := instr
  have none : (0 : BitVec 32).toNat < numGPRegs := by decide
  have loaded : (rt.setWidth 32).toNat < numGPRegs := by
    have small := rt.isLt
    rw [BitVec.toNat_setWidth, numGPRegs]
    omega
  -- One case for each operation; most of them cannot raise an exception at all.
  cases opCode with
  | add | addi | sub => exact .ite (.raiseException midway) none
  | div => exact .ite none (.ite trivial none)
  | divu => exact .ite none none
  | lb | lbu => exact .bind (.readMem midway) fun _ _ => loaded
  | lh | lhu | lw =>
    exact .ite (.raiseException midway) (.bind (.readMem midway) fun _ _ => loaded)
  | lwl | lwr => exact .ite trivial (.bind (.readMem midway) fun _ _ => loaded)
  | sb | sh | sw => exact .bind (.writeMem midway) fun _ _ => none
  | swl | swr =>
    -- The bytes are written by the second reference, behind which no exception is left.
    exact .ite trivial (.bind (.readMem midway) fun _ fetched =>
      .bind (.writeMem fetched) fun _ _ => none)
  | syscall | res | unimp => exact .raiseException midway
  | rfe | special | bcond => trivial
  | _ => exact none

/-- An instruction that ends leaves a load on its way to a general register, and one that is stopped by
an exception can be repeated. -/
theorem ends_oneInstruction (pending : (machine.registers loadReg).toNat < numGPRegs) :
    machine.Ends (fun after => (after.registers loadReg).toNat < numGPRegs)
      machine.oneInstruction := by
  have start : machine.Midway machine := ⟨pending, rfl, rfl⟩
  -- The word is fetched, the switch is run, and then the load on its way is finished.
  refine .bind (.readMem start) fun fetched midway => ?_
  refine .bind (ends_execute midway _) fun outcome loaded => ?_
  refine .bind .delayedLoad fun landed next => ?_
  -- Advancing the program counters does not touch the next load.
  have kept : (landed.advance outcome.pcAfter).registers loadReg = landed.registers loadReg :=
    advance_of_ne landed _ (by decide)
  show ((landed.advance outcome.pcAfter).registers loadReg).toNat < numGPRegs
  rw [kept, next]
  exact loaded

/-- An exception in `OneInstruction` leaves the program counters, `Hi`, `Lo` and main memory alone, and
of the general registers it changes only `R0` and the target of the load on its way. -/
theorem restartable_oneInstruction {after : Machine} {which : ExceptionType}
    (pending : (machine.registers loadReg).toNat < numGPRegs)
    (raised : machine.oneInstruction = .error (.raised which after)) :
    machine.Restartable after := by
  have ends := ends_oneInstruction pending
  rw [raised] at ends
  exact ends

/-- A program that loads a word from a page without a frame, while another load is on its way. -/
def absentPage : Machine where
  registers := fun register =>
    if register = loadReg then 4 else if register = loadValueReg then 7 else 0
  -- `lw $2, 128($0)`
  mainMemory := fun address =>
    if address = 0 then 0x80 else if address = 2 then 0x02 else if address = 3 then 0x8c else 0
  table := .pageTable [⟨0, 0, true, false, false, false⟩, ⟨1, -1, false, false, false, false⟩]

theorem restartable_absentPage : ∃ after,
    absentPage.oneInstruction = .error (.raised .pageFault after) ∧ absentPage.Restartable after :=
  ⟨_, rfl, restartable_oneInstruction (by decide) rfl⟩

end Machine

end Nachos
