import Nachos.Machine.Restart

/-! What the instruction set says about the integer instructions, and how the simulator decodes them. -/

namespace Nachos

namespace Isa

/-- The arithmetic, logical, shift, comparison and division instructions. -/
inductive Op where
  | add | addi | addiu | addu | sub | subu
  | and | andi | or | ori | xor | xori | nor | lui
  | sll | sllv | srl | srlv | sra | srav
  | slt | slti | sltu | sltiu
  | div | divu
  deriving DecidableEq, Repr

/-- The instructions whose operation field is zero, by the function field. -/
def functionOp : Nat → Option Op
  | 0 => some .sll
  | 2 => some .srl
  | 3 => some .sra
  | 4 => some .sllv
  | 6 => some .srlv
  | 7 => some .srav
  | 26 => some .div
  | 27 => some .divu
  | 32 => some .add
  | 33 => some .addu
  | 34 => some .sub
  | 35 => some .subu
  | 36 => some .and
  | 37 => some .or
  | 38 => some .xor
  | 39 => some .nor
  | 42 => some .slt
  | 43 => some .sltu
  | _ => none

/-- The instructions with an immediate operand, by the operation field. -/
def immediateOp : Nat → Option Op
  | 8 => some .addi
  | 9 => some .addiu
  | 10 => some .slti
  | 11 => some .sltiu
  | 12 => some .andi
  | 13 => some .ori
  | 14 => some .xori
  | 15 => some .lui
  | _ => none

/-- The instruction that a word stands for, when it is one of these. -/
def instruction (word : BitVec 32) : Option Op :=
  if word.extractLsb' 26 6 = 0 then functionOp (word.extractLsb' 0 6).toNat
  else immediateOp (word.extractLsb' 26 6).toNat

/-- What an instruction does to the register file. -/
inductive Effect where
  | overflow
  /-- One general register gets a value. -/
  | write (register : BitVec 5) (value : BitVec 32)
  /-- `Lo` and `Hi` get a quotient and a remainder. -/
  | divide (lo hi : BitVec 32)
  deriving DecidableEq, Repr

/-- The result of an addition or subtraction that has to fit into a signed word. -/
def checked (register : BitVec 5) (sum : Int) : Effect :=
  if -2 ^ 31 ≤ sum ∧ sum < 2 ^ 31 then .write register (BitVec.ofInt 32 sum) else .overflow

/-- What the instruction set says about an instruction, given the registers that it reads. -/
def effect (op : Op) (word : BitVec 32) (registers : Nat → BitVec 32) : Effect :=
  let rs := registers (word.extractLsb' 21 5).toNat
  let rt := registers (word.extractLsb' 16 5).toNat
  let toRt := word.extractLsb' 16 5
  let toRd := word.extractLsb' 11 5
  let shamt := (word.extractLsb' 6 5).toNat
  let immediate := word.extractLsb' 0 16
  match op with
  | .add => checked toRd (rs.toInt + rt.toInt)
  | .addi => checked toRt (rs.toInt + immediate.toInt)
  | .addiu => .write toRt (rs + immediate.signExtend 32)
  | .addu => .write toRd (rs + rt)
  | .sub => checked toRd (rs.toInt - rt.toInt)
  | .subu => .write toRd (rs - rt)
  | .and => .write toRd (rs &&& rt)
  | .andi => .write toRt (rs &&& immediate.setWidth 32)
  | .or => .write toRd (rs ||| rt)
  | .ori => .write toRt (rs ||| immediate.setWidth 32)
  | .xor => .write toRd (rs ^^^ rt)
  | .xori => .write toRt (rs ^^^ immediate.setWidth 32)
  | .nor => .write toRd (~~~(rs ||| rt))
  | .lui => .write toRt (immediate ++ 0#16)
  | .sll => .write toRd (rt <<< shamt)
  | .sllv => .write toRd (rt <<< (rs.toNat % 32))
  | .srl => .write toRd (rt >>> shamt)
  | .srlv => .write toRd (rt >>> (rs.toNat % 32))
  | .sra => .write toRd (rt.sshiftRight shamt)
  | .srav => .write toRd (rt.sshiftRight (rs.toNat % 32))
  | .slt => .write toRd (if rs.toInt < rt.toInt then 1 else 0)
  | .slti => .write toRt (if rs.toInt < immediate.toInt then 1 else 0)
  | .sltu => .write toRd (if rs.toNat < rt.toNat then 1 else 0)
  | .sltiu => .write toRt (if rs.toNat < (immediate.signExtend 32).toNat then 1 else 0)
  | .div =>
    .divide (BitVec.ofInt 32 (rs.toInt.tdiv rt.toInt)) (BitVec.ofInt 32 (rs.toInt.tmod rt.toInt))
  | .divu => .divide (BitVec.ofNat 32 (rs.toNat / rt.toNat)) (BitVec.ofNat 32 (rs.toNat % rt.toNat))

/-- The divisions to which the instruction set gives a result. -/
def Defined (op : Op) (word : BitVec 32) (registers : Nat → BitVec 32) : Prop :=
  let rs := registers (word.extractLsb' 21 5).toNat
  let rt := registers (word.extractLsb' 16 5).toNat
  match op with
  | .div => rt ≠ 0#32 ∧ ¬(rs.toInt = -2 ^ 31 ∧ rt.toInt = -1)
  | .divu => rt ≠ 0#32
  | _ => True

/-- The operation code that the simulator has for an instruction. -/
def Op.code : Op → OpCode
  | .add => .add
  | .addi => .addi
  | .addiu => .addiu
  | .addu => .addu
  | .sub => .sub
  | .subu => .subu
  | .and => .and
  | .andi => .andi
  | .or => .or
  | .ori => .ori
  | .xor => .xor
  | .xori => .xori
  | .nor => .nor
  | .lui => .lui
  | .sll => .sll
  | .sllv => .sllv
  | .srl => .srl
  | .srlv => .srlv
  | .sra => .sra
  | .srav => .srav
  | .slt => .slt
  | .slti => .slti
  | .sltu => .sltu
  | .sltiu => .sltiu
  | .div => .div
  | .divu => .divu

/-- Has the instruction an immediate operand? -/
def Op.immediate : Op → Bool
  | .addi | .addiu | .andi | .ori | .xori | .lui | .slti | .sltiu => true
  | _ => false

/-- The operand that the simulator decodes besides the registers. -/
def Op.extra (op : Op) (word : BitVec 32) : BitVec 32 :=
  if op.immediate then (word.extractLsb' 0 16).signExtend 32 else (word.extractLsb' 6 5).setWidth 32

section Decode

theorem specialTable_get : ∀ funct : Fin 64, ∀ op ∈ functionOp funct.val,
    specialTable.get funct = op.code ∧ op.immediate = false := by
  decide

theorem opTable_get : ∀ code : Fin 64, code ≠ 0 → ∀ op ∈ immediateOp code.val,
    opTable.get code = ⟨op.code, .ifmt⟩ ∧ op.immediate = true := by
  decide

/-- The immediate operand is extended with its sign. -/
theorem signExtend_immediate (word : BitVec 32) :
    (if word &&& 0xffff#32 &&& 0x8000#32 ≠ 0#32 then word &&& 0xffff#32 ||| 0xffff0000#32
      else word &&& 0xffff#32) = (word.extractLsb' 0 16).signExtend 32 := by
  -- The masks are compared bit by bit, and bit 15 decides about the upper half.
  have low : ∀ bit < 32, (0xffff#32).getLsbD bit = decide (bit < 16) := by decide
  have high : ∀ bit < 32, (0xffff0000#32).getLsbD bit = decide (16 ≤ bit) := by decide
  have sign : word &&& 0xffff#32 &&& 0x8000#32 ≠ 0#32 ↔ word.getLsbD 15 = true := by
    rw [BitVec.and_assoc, show 0xffff#32 &&& 0x8000#32 = BitVec.twoPow 32 15 from rfl,
      BitVec.and_twoPow]
    cases word.getLsbD 15 <;> decide
  refine BitVec.eq_of_getLsbD_eq fun bit small => ?_
  rw [BitVec.getLsbD_signExtend, BitVec.msb_eq_getLsbD_last, BitVec.getLsbD_extractLsb',
    BitVec.getLsbD_extractLsb']
  split
  · rename_i negative
    rw [sign] at negative
    simp [low bit small, high bit small]
    grind
  · rename_i positive
    rw [sign] at positive
    simp [low bit small]
    grind

theorem shift_amount (word : BitVec 32) :
    word >>> 6 &&& 0x1f#32 = (word.extractLsb' 6 5).setWidth 32 := by
  have low : ∀ bit < 32, (0x1f#32).getLsbD bit = decide (bit < 5) := by decide
  refine BitVec.eq_of_getLsbD_eq fun bit small => ?_
  simp [low bit small]
  grind

/-- The tables of the simulator know every one of these instructions. -/
theorem decode_instruction {word : BitVec 32} {op : Op} (known : instruction word = some op) :
    decode word = ⟨op.code, word.extractLsb' 21 5, word.extractLsb' 16 5, word.extractLsb' 11 5,
      op.extra word⟩ := by
  -- The operation field is zero for the instructions with a function field.
  rw [instruction] at known
  split at known
  · rename_i special
    obtain ⟨code, register⟩ := specialTable_get (word.extractLsb' 0 6).toFin op known
    -- The first table leads on to the second one.
    have info : opInfo word = ⟨.special, .rfmt⟩ := by
      rw [opInfo, special]
      rfl
    rw [decode, info, specialCode, code, Op.extra, register]
    exact congrArg _ (shift_amount word)
  · rename_i other
    obtain ⟨info, immediate⟩ := opTable_get (word.extractLsb' 26 6).toFin
      (fun zero => other (BitVec.eq_of_toFin_eq zero)) op known
    rw [decode, opInfo, info, Op.extra, immediate, if_pos rfl, ← signExtend_immediate]
    -- None of these asks for further decoding.
    cases op <;> rfl

end Decode

end Isa

end Nachos
