import Nachos.Machine.Instruction
import Nachos.Machine.Mult
import Mathlib.Logic.Function.Basic

/-! `Machine::OneInstruction`: the execution of one instruction of a user program. -/

namespace Nachos

/-- `NumGPRegs`. -/
def numGPRegs : Nat := 32

/-- `HiReg`. -/
def hiReg : Nat := 32

/-- `LoReg`. -/
def loReg : Nat := 33

/-- `PCReg`. -/
def pcReg : Nat := 34

/-- `NextPCReg`. -/
def nextPCReg : Nat := 35

/-- `PrevPCReg`. -/
def prevPCReg : Nat := 36

/-- `LoadReg`, the register target of a delayed load. -/
def loadReg : Nat := 37

/-- `LoadValueReg`, the value to be loaded by a delayed load. -/
def loadValueReg : Nat := 38

/-- `BadVAddrReg`. -/
def badVAddrReg : Nat := 39

/-- `NumTotalRegs`. -/
def numTotalRegs : Nat := 40

/-- `SIGN_BIT`. -/
def signBit : BitVec 32 := 0x80000000#32

/-- `IndexToAddr`. -/
def indexToAddr (index : BitVec 32) : BitVec 32 := index <<< 2

/-- The part of `Machine` that a user program works on. -/
structure Machine where
  registers : Nat → BitVec 32
  mainMemory : Memory
  table : TranslationTable

/-- Ways in which an instruction is not finished. -/
inductive Stop where
  /-- `ExceptionHandler` is entered with the machine in this state. -/
  | raised (which : ExceptionType) (machine : Machine)
  /-- The simulator itself stops making sense. -/
  | fault (reason : Fault)
  /-- The host cannot represent the quotient of a division. -/
  | quotient

namespace Machine

variable (machine : Machine)

/-- An assignment to one element of `registers`. -/
def setRegister (register : Nat) (value : BitVec 32) : Machine :=
  { machine with registers := Function.update machine.registers register value }

theorem setRegister_of_ne {register other : Nat} (apart : other ≠ register) (value : BitVec 32) :
    (machine.setRegister register value).registers other = machine.registers other := by
  simp only [setRegister, Function.update_of_ne apart]

/-- `Machine::DelayedLoad`. -/
def delayedLoad (nextReg nextValue : BitVec 32) : Except Stop Machine :=
  let target := machine.registers loadReg
  if target.toNat < numTotalRegs then
    let machine := machine.setRegister target.toNat (machine.registers loadValueReg)
    let machine := machine.setRegister loadReg nextReg
    let machine := machine.setRegister loadValueReg nextValue
    .ok (machine.setRegister 0 0)
  else .error (.fault (.wildAccess target.toInt))

/-- `Machine::RaiseException`, until the kernel's handler is called. -/
def raiseException {α : Type} (which : ExceptionType) (badVAddr : BitVec 32) : Except Stop α := do
  let machine := machine.setRegister badVAddrReg badVAddr
  let machine ← machine.delayedLoad 0 0
  .error (.raised which machine)

/-- `Machine::ReadMem`, with the exception that it raises. -/
def readMem (addr : BitVec 32) (size : Nat) : Except Stop (BitVec 32 × Machine) :=
  match Nachos.readMem machine.table machine.mainMemory addr size with
  | .ok (value, table) => .ok (value, { machine with table := table })
  | .error (.exception which) => machine.raiseException which addr
  | .error .assertion => .error (.fault .assertion)

/-- `Machine::WriteMem`, with the exception that it raises. -/
def writeMem (addr : BitVec 32) (size : Nat) (value : BitVec 32) : Except Stop Machine :=
  match Nachos.writeMem machine.table machine.mainMemory addr size value with
  | .ok (mainMemory, table) => .ok { machine with mainMemory := mainMemory, table := table }
  | .error (.exception which) => machine.raiseException which addr
  | .error .assertion => .error (.fault .assertion)

end Machine

/-- The switch of `OP_LWL`. -/
def lwlValue (tmp value old : BitVec 32) : BitVec 32 :=
  match (tmp &&& 3#32).toNat with
  | 0 => value
  | 1 => (old &&& 0xff#32) ||| value <<< 8
  | 2 => (old &&& 0xffff#32) ||| value <<< 16
  | _ => (old &&& 0xffffff#32) ||| value <<< 24

/-- The switch of `OP_LWR`. -/
def lwrValue (tmp value old : BitVec 32) : BitVec 32 :=
  match (tmp &&& 3#32).toNat with
  | 0 => (old &&& 0xffffff00#32) ||| (value.sshiftRight 24 &&& 0xff#32)
  | 1 => (old &&& 0xffff0000#32) ||| (value.sshiftRight 16 &&& 0xffff#32)
  | 2 => (old &&& 0xff000000#32) ||| (value.sshiftRight 8 &&& 0xffffff#32)
  | _ => value

/-- The switch of `OP_SWL`. -/
def swlValue (tmp value register : BitVec 32) : BitVec 32 :=
  match (tmp &&& 3#32).toNat with
  | 0 => register
  | 1 => (value &&& 0xff000000#32) ||| (register.sshiftRight 8 &&& 0xffffff#32)
  | 2 => (value &&& 0xffff0000#32) ||| (register.sshiftRight 16 &&& 0xffff#32)
  | _ => (value &&& 0xffffff00#32) ||| (register.sshiftRight 24 &&& 0xff#32)

/-- The switch of `OP_SWR`. -/
def swrValue (tmp value register : BitVec 32) : BitVec 32 :=
  match (tmp &&& 3#32).toNat with
  | 0 => (value &&& 0xffffff#32) ||| register <<< 24
  | 1 => (value &&& 0xffff#32) ||| register <<< 16
  | 2 => (value &&& 0xff#32) ||| register <<< 8
  | _ => register

/-- The machine behind the switch of `OneInstruction`, with the local variables used from there on. -/
structure Executed where
  machine : Machine
  pcAfter : BitVec 32
  nextLoadReg : BitVec 32
  nextLoadValue : BitVec 32

namespace Machine

/-- The switch of `Machine::OneInstruction`. -/
def execute (machine : Machine) (instr : Instruction) : Except Stop Executed :=
  let registers := machine.registers
  let rs := instr.rs.toNat
  let rt := instr.rt.toNat
  let rd := instr.rd.toNat
  let extra := instr.extra
  let tmp := registers rs + extra
  let pcAfter := registers nextPCReg + 4
  -- What is left to do where the instruction neither loads nor jumps, and where it may branch.
  let finish (machine : Machine) : Except Stop Executed := .ok ⟨machine, pcAfter, 0, 0⟩
  let branch (machine : Machine) (taken : Bool) : Except Stop Executed :=
    .ok ⟨machine, if taken then registers nextPCReg + indexToAddr extra else pcAfter, 0, 0⟩
  let load (machine : Machine) (value : BitVec 32) : Except Stop Executed :=
    .ok ⟨machine, pcAfter, instr.rt.setWidth 32, value⟩
  match instr.opCode with
  | .add =>
    let sum := registers rs + registers rt
    if (registers rs ^^^ registers rt) &&& signBit = 0#32 ∧
        (registers rs ^^^ sum) &&& signBit ≠ 0#32 then
      machine.raiseException .overflow 0
    else finish (machine.setRegister rd sum)
  | .addi =>
    let sum := registers rs + extra
    if (registers rs ^^^ extra) &&& signBit = 0#32 ∧ (extra ^^^ sum) &&& signBit ≠ 0#32 then
      machine.raiseException .overflow 0
    else finish (machine.setRegister rt sum)
  | .addiu => finish (machine.setRegister rt (registers rs + extra))
  | .addu => finish (machine.setRegister rd (registers rs + registers rt))
  | .and => finish (machine.setRegister rd (registers rs &&& registers rt))
  | .andi => finish (machine.setRegister rt (registers rs &&& (extra &&& 0xffff#32)))
  | .beq => branch machine (registers rs = registers rt)
  | .bgezal =>
    let machine := machine.setRegister 31 (registers nextPCReg + 4)
    branch machine (machine.registers rs &&& signBit = 0#32)
  | .bgez => branch machine (registers rs &&& signBit = 0#32)
  | .bgtz => branch machine ((registers rs).toInt > 0)
  | .blez => branch machine ((registers rs).toInt ≤ 0)
  | .bltzal =>
    let machine := machine.setRegister 31 (registers nextPCReg + 4)
    branch machine (machine.registers rs &&& signBit ≠ 0#32)
  | .bltz => branch machine (registers rs &&& signBit ≠ 0#32)
  | .bne => branch machine (registers rs ≠ registers rt)
  | .div =>
    if registers rt = 0#32 then finish ((machine.setRegister loReg 0#32).setRegister hiReg 0#32)
    -- `INT_MIN / -1` has no value that an `int` can hold.
    else if registers rs = BitVec.intMin 32 ∧ registers rt = -1#32 then .error .quotient
    else
      let machine := machine.setRegister loReg ((registers rs).sdiv (registers rt))
      finish (machine.setRegister hiReg ((registers rs).srem (registers rt)))
  | .divu =>
    if registers rt = 0#32 then finish ((machine.setRegister loReg 0#32).setRegister hiReg 0#32)
    else
      let machine := machine.setRegister loReg (registers rs / registers rt)
      finish (machine.setRegister hiReg (registers rs % registers rt))
  | .jal =>
    let machine := machine.setRegister 31 (registers nextPCReg + 4)
    .ok ⟨machine, (pcAfter &&& 0xf0000000#32) ||| indexToAddr extra, 0, 0⟩
  | .j => .ok ⟨machine, (pcAfter &&& 0xf0000000#32) ||| indexToAddr extra, 0, 0⟩
  | .jalr =>
    let machine := machine.setRegister rd (registers nextPCReg + 4)
    .ok ⟨machine, machine.registers rs, 0, 0⟩
  | .jr => .ok ⟨machine, registers rs, 0, 0⟩
  | .lb => do
    let (value, machine) ← machine.readMem tmp 1
    load machine (if value &&& 0x80#32 ≠ 0#32 then value ||| 0xffffff00#32 else value &&& 0xff#32)
  | .lbu => do
    let (value, machine) ← machine.readMem tmp 1
    load machine (value &&& 0xff#32)
  | .lh =>
    if tmp &&& 1#32 ≠ 0#32 then machine.raiseException .addressError tmp
    else do
      let (value, machine) ← machine.readMem tmp 2
      load machine
        (if value &&& 0x8000#32 ≠ 0#32 then value ||| 0xffff0000#32 else value &&& 0xffff#32)
  | .lhu =>
    if tmp &&& 1#32 ≠ 0#32 then machine.raiseException .addressError tmp
    else do
      let (value, machine) ← machine.readMem tmp 2
      load machine (value &&& 0xffff#32)
  | .lui => finish (machine.setRegister rt (extra <<< 16))
  | .lw =>
    if tmp &&& 3#32 ≠ 0#32 then machine.raiseException .addressError tmp
    else do
      let (value, machine) ← machine.readMem tmp 4
      load machine value
  | .lwl =>
    if tmp &&& 3#32 ≠ 0#32 then .error (.fault .assertion)
    else do
      let (value, machine) ← machine.readMem tmp 4
      -- A load into the same register that is still on its way is the one to merge with.
      let old := if registers loadReg = instr.rt.setWidth 32 then registers loadValueReg
        else registers rt
      load machine (lwlValue tmp value old)
  | .lwr =>
    if tmp &&& 3#32 ≠ 0#32 then .error (.fault .assertion)
    else do
      let (value, machine) ← machine.readMem tmp 4
      let old := if registers loadReg = instr.rt.setWidth 32 then registers loadValueReg
        else registers rt
      load machine (lwrValue tmp value old)
  | .mfhi => finish (machine.setRegister rd (registers hiReg))
  | .mflo => finish (machine.setRegister rd (registers loReg))
  | .mthi => finish (machine.setRegister hiReg (registers rs))
  | .mtlo => finish (machine.setRegister loReg (registers rs))
  | .mult =>
    let product := Nachos.mult (registers rs) (registers rt) true
    finish ((machine.setRegister hiReg product.hi).setRegister loReg product.lo)
  | .multu =>
    let product := Nachos.mult (registers rs) (registers rt) false
    finish ((machine.setRegister hiReg product.hi).setRegister loReg product.lo)
  | .nor => finish (machine.setRegister rd (~~~(registers rs ||| registers rt)))
  -- Both operands of the source are `rs`.
  | .or => finish (machine.setRegister rd (registers rs ||| registers rs))
  | .ori => finish (machine.setRegister rt (registers rs ||| (extra &&& 0xffff#32)))
  | .sb => do
    let machine ← machine.writeMem tmp 1 (registers rt)
    finish machine
  | .sh => do
    let machine ← machine.writeMem tmp 2 (registers rt)
    finish machine
  | .sll => finish (machine.setRegister rd (registers rt <<< extra.toNat))
  | .sllv => finish (machine.setRegister rd (registers rt <<< (registers rs &&& 0x1f#32).toNat))
  | .slt =>
    finish (machine.setRegister rd (if (registers rs).toInt < (registers rt).toInt then 1 else 0))
  | .slti => finish (machine.setRegister rt (if (registers rs).toInt < extra.toInt then 1 else 0))
  | .sltiu => finish (machine.setRegister rt (if registers rs < extra then 1 else 0))
  | .sltu => finish (machine.setRegister rd (if registers rs < registers rt then 1 else 0))
  | .sra => finish (machine.setRegister rd ((registers rt).sshiftRight extra.toNat))
  | .srav =>
    finish (machine.setRegister rd ((registers rt).sshiftRight (registers rs &&& 0x1f#32).toNat))
  -- The value that is shifted is an `int`.
  | .srl => finish (machine.setRegister rd ((registers rt).sshiftRight extra.toNat))
  | .srlv =>
    finish (machine.setRegister rd ((registers rt).sshiftRight (registers rs &&& 0x1f#32).toNat))
  | .sub =>
    let diff := registers rs - registers rt
    if (registers rs ^^^ registers rt) &&& signBit ≠ 0#32 ∧
        (registers rs ^^^ diff) &&& signBit ≠ 0#32 then
      machine.raiseException .overflow 0
    else finish (machine.setRegister rd diff)
  | .subu => finish (machine.setRegister rd (registers rs - registers rt))
  | .sw => do
    let machine ← machine.writeMem tmp 4 (registers rt)
    finish machine
  | .swl =>
    if tmp &&& 3#32 ≠ 0#32 then .error (.fault .assertion)
    else do
      let (value, machine) ← machine.readMem (tmp &&& ~~~3#32) 4
      let machine ← machine.writeMem (tmp &&& ~~~3#32) 4 (swlValue tmp value (registers rt))
      finish machine
  | .swr =>
    if tmp &&& 3#32 ≠ 0#32 then .error (.fault .assertion)
    else do
      let (value, machine) ← machine.readMem (tmp &&& ~~~3#32) 4
      let machine ← machine.writeMem (tmp &&& ~~~3#32) 4 (swrValue tmp value (registers rt))
      finish machine
  | .syscall => machine.raiseException .syscall 0
  | .xor => finish (machine.setRegister rd (registers rs ^^^ registers rt))
  | .xori => finish (machine.setRegister rt (registers rs ^^^ (extra &&& 0xffff#32)))
  | .res | .unimp => machine.raiseException .illegalInstr 0
  | .rfe | .special | .bcond => .error (.fault .assertion)

/-- The end of `Machine::OneInstruction`, which advances the program counters. -/
def advance (machine : Machine) (pcAfter : BitVec 32) : Machine :=
  let machine := machine.setRegister prevPCReg (machine.registers pcReg)
  let machine := machine.setRegister pcReg (machine.registers nextPCReg)
  machine.setRegister nextPCReg pcAfter

/-- Only the program counters are advanced. -/
theorem advance_of_ne (machine : Machine) (pcAfter : BitVec 32) {register : Nat}
    (apart : register ≠ prevPCReg ∧ register ≠ pcReg ∧ register ≠ nextPCReg) :
    (machine.advance pcAfter).registers register = machine.registers register := by
  simp only [advance, setRegister_of_ne _ apart.1, setRegister_of_ne _ apart.2.1,
    setRegister_of_ne _ apart.2.2]

/-- `Machine::OneInstruction`. -/
def oneInstruction (machine : Machine) : Except Stop Machine := do
  let (raw, machine) ← machine.readMem (machine.registers pcReg) 4
  let outcome ← machine.execute (decode raw)
  let machine ← outcome.machine.delayedLoad outcome.nextLoadReg outcome.nextLoadValue
  return machine.advance outcome.pcAfter

end Machine

end Nachos
