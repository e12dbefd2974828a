import Mathlib.Logic.Basic

/-! `Instruction::Decode`: the fields of an instruction word and the operation it stands for. -/

namespace Nachos

/-- The operation codes, with the two values of `opTable` that ask for further decoding. -/
inductive OpCode where
  | add | addi | addiu | addu | and | andi | beq | bgez | bgezal | bgtz | blez | bltz | bltzal | bne
  | div | divu | j | jal | jalr | jr | lb | lbu | lh | lhu | lui | lw | lwl | lwr
  | mfhi | mflo | mthi | mtlo | mult | multu | nor | or | ori | rfe | sb | sh | sll | sllv
  | slt | slti | sltiu | sltu | sra | srav | srl | srlv | sub | subu | sw | swl | swr | xor | xori
  | syscall | unimp | res
  | special | bcond
  deriving DecidableEq, Repr

/-- `IFMT`, `JFMT` and `RFMT`. -/
inductive Format where
  | ifmt | jfmt | rfmt
  deriving DecidableEq, Repr

/-- `OpInfo`. -/
structure OpInfo where
  opCode : OpCode
  format : Format
  deriving DecidableEq, Repr

/-- `opTable`, for bits 31 to 26 of the word. -/
def opTable : Vector OpInfo 64 := #v[
  ⟨.special, .rfmt⟩, ⟨.bcond, .ifmt⟩, ⟨.j, .jfmt⟩, ⟨.jal, .jfmt⟩,
  ⟨.beq, .ifmt⟩, ⟨.bne, .ifmt⟩, ⟨.blez, .ifmt⟩, ⟨.bgtz, .ifmt⟩,
  ⟨.addi, .ifmt⟩, ⟨.addiu, .ifmt⟩, ⟨.slti, .ifmt⟩, ⟨.sltiu, .ifmt⟩,
  ⟨.andi, .ifmt⟩, ⟨.ori, .ifmt⟩, ⟨.xori, .ifmt⟩, ⟨.lui, .ifmt⟩,
  ⟨.unimp, .ifmt⟩, ⟨.unimp, .ifmt⟩, ⟨.unimp, .ifmt⟩, ⟨.unimp, .ifmt⟩,
  ⟨.res, .ifmt⟩, ⟨.res, .ifmt⟩, ⟨.res, .ifmt⟩, ⟨.res, .ifmt⟩,
  ⟨.res, .ifmt⟩, ⟨.res, .ifmt⟩, ⟨.res, .ifmt⟩, ⟨.res, .ifmt⟩,
  ⟨.res, .ifmt⟩, ⟨.res, .ifmt⟩, ⟨.res, .ifmt⟩, ⟨.res, .ifmt⟩,
  ⟨.lb, .ifmt⟩, ⟨.lh, .ifmt⟩, ⟨.lwl, .ifmt⟩, ⟨.lw, .ifmt⟩,
  ⟨.lbu, .ifmt⟩, ⟨.lhu, .ifmt⟩, ⟨.lwr, .ifmt⟩, ⟨.res, .ifmt⟩,
  ⟨.sb, .ifmt⟩, ⟨.sh, .ifmt⟩, ⟨.swl, .ifmt⟩, ⟨.sw, .ifmt⟩,
  ⟨.res, .ifmt⟩, ⟨.res, .ifmt⟩, ⟨.swr, .ifmt⟩, ⟨.res, .ifmt⟩,
  ⟨.unimp, .ifmt⟩, ⟨.unimp, .ifmt⟩, ⟨.unimp, .ifmt⟩, ⟨.unimp, .ifmt⟩,
  ⟨.res, .ifmt⟩, ⟨.res, .ifmt⟩, ⟨.res, .ifmt⟩, ⟨.res, .ifmt⟩,
  ⟨.unimp, .ifmt⟩, ⟨.unimp, .ifmt⟩, ⟨.unimp, .ifmt⟩, ⟨.unimp, .ifmt⟩,
  ⟨.res, .ifmt⟩, ⟨.res, .ifmt⟩, ⟨.res, .ifmt⟩, ⟨.res, .ifmt⟩]

/-- `specialTable`, for the `funct` field of the words whose code is `SPECIAL`. -/
def specialTable : Vector OpCode 64 := #v[
  .sll, .res, .srl, .sra, .sllv, .res, .srlv, .srav,
  .jr, .jalr, .res, .res, .syscall, .unimp, .res, .res,
  .mfhi, .mthi, .mflo, .mtlo, .res, .res, .res, .res,
  .mult, .multu, .div, .divu, .res, .res, .res, .res,
  .add, .addu, .sub, .subu, .and, .or, .xor, .nor,
  .res, .res, .slt, .sltu, .res, .res, .res, .res,
  .res, .res, .res, .res, .res, .res, .res, .res,
  .res, .res, .res, .res, .res, .res, .res, .res]

/-- `Instruction`, decoded. -/
structure Instruction where
  opCode : OpCode
  rs : BitVec 5
  rt : BitVec 5
  rd : BitVec 5
  /-- The immediate value, the shift amount or the target of the jump. -/
  extra : BitVec 32
  deriving DecidableEq, Repr

/-- `opTable[(value >> 26) & 0x3f]`. -/
def opInfo (value : BitVec 32) : OpInfo := opTable.get (value.extractLsb' 26 6).toFin

/-- `specialTable[value & 0x3f]`. -/
def specialCode (value : BitVec 32) : OpCode := specialTable.get (value.extractLsb' 0 6).toFin

/-- The branches that are told apart by the place of `rt`. -/
def branchCode (value : BitVec 32) : OpCode :=
  let i := value &&& 0x1f0000#32
  if i = 0#32 then .bltz
  else if i = 0x10000#32 then .bgez
  else if i = 0x100000#32 then .bltzal
  else if i = 0x110000#32 then .bgezal
  else .unimp

/-- `Instruction::Decode`. -/
def decode (value : BitVec 32) : Instruction where
  opCode :=
    match (opInfo value).opCode with
    | .special => specialCode value
    | .bcond => branchCode value
    | opCode => opCode
  -- `(value >> 21) & 0x1f`, and so for the other registers.
  rs := value.extractLsb' 21 5
  rt := value.extractLsb' 16 5
  rd := value.extractLsb' 11 5
  extra :=
    match (opInfo value).format with
    | .ifmt =>
      let extra := value &&& 0xffff#32
      if extra &&& 0x8000#32 ≠ 0#32 then extra ||| 0xffff0000#32 else extra
    | .rfmt => value >>> 6 &&& 0x1f#32
    | .jfmt => value &&& 0x3ffffff#32

end Nachos
