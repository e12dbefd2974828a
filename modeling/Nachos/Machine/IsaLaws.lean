import Nachos.Machine.Isa

/-! Where the simulator does what the instruction set says about the integer instructions. -/

namespace Nachos

section Operators

variable (a b : BitVec 32) (immediate : BitVec 16)

theorem and_signBit : a &&& signBit ≠ 0#32 ↔ a.msb = true := by
  -- The mask leaves the sign bit, which is set from half of the range on.
  rw [BitVec.msb_eq_decide, decide_eq_true_iff]
  exact topBit_set a

/-- The test of the simulator for an overflow of `a + b`. -/
theorem add_overflow : ((a ^^^ b) &&& signBit = 0#32 ∧ (a ^^^ (a + b)) &&& signBit ≠ 0#32) ↔
    a.saddOverflow b = true := by
  -- All that counts is the sign of the operands and of the sum.
  rw [← not_ne_iff, and_signBit, and_signBit, BitVec.msb_xor, BitVec.msb_xor,
    BitVec.saddOverflow_eq]
  cases a.msb <;> cases b.msb <;> simp

/-- For an immediate operand the sign of the sum is compared with the sign of the other operand. -/
theorem add_overflow' : ((a ^^^ b) &&& signBit = 0#32 ∧ (b ^^^ (a + b)) &&& signBit ≠ 0#32) ↔
    a.saddOverflow b = true := by
  rw [← not_ne_iff, and_signBit, and_signBit, BitVec.msb_xor, BitVec.msb_xor,
    BitVec.saddOverflow_eq]
  cases a.msb <;> cases b.msb <;> simp

/-- The test of the simulator for an overflow of `a - b`. -/
theorem sub_overflow : ((a ^^^ b) &&& signBit ≠ 0#32 ∧ (a ^^^ (a - b)) &&& signBit ≠ 0#32) ↔
    a.ssubOverflow b = true := by
  rw [and_signBit, and_signBit, BitVec.msb_xor, BitVec.msb_xor, BitVec.ssubOverflow_eq]
  cases a.msb <;> cases b.msb <;> simp

theorem signExtend_and : immediate.signExtend 32 &&& 0xffff#32 = immediate.setWidth 32 := by
  -- Below bit 16 both sides are the operand, and above they are clear.
  have low : ∀ bit < 32, (0xffff#32).getLsbD bit = decide (bit < 16) := by decide
  refine BitVec.eq_of_getLsbD_eq fun bit small => ?_
  rw [BitVec.getLsbD_and, low bit small, BitVec.getLsbD_signExtend, BitVec.getLsbD_setWidth]
  grind

theorem signExtend_shiftLeft : immediate.signExtend 32 <<< 16 = immediate ++ 0#16 := by
  refine BitVec.eq_of_getLsbD_eq fun bit small => ?_
  -- The bits above are those of the operand, whatever they were extended with.
  have joined : (immediate ++ 0#16).getLsbD bit =
      if bit < 16 then (0#16).getLsbD bit else immediate.getLsbD (bit - 16) := BitVec.getLsbD_append
  rw [joined, BitVec.getLsbD_shiftLeft, BitVec.getLsbD_signExtend, decide_eq_true small]
  by_cases low : bit < 16
  · simp [low]
  · simp [low, show bit - 16 < 32 by omega, show bit - 16 < 16 by omega]

theorem toNat_and_31 : (a &&& 0x1f#32).toNat = a.toNat % 32 := by
  rw [BitVec.toNat_and]
  exact Nat.and_two_pow_sub_one_eq_mod _ 5

/-- An arithmetic shift is a logical one exactly if it moves no bit or a clear sign bit. -/
theorem sshiftRight_eq_iff (amount : Nat) :
    a.sshiftRight amount = a >>> amount ↔ amount = 0 ∨ a.msb = false := by
  constructor
  · intro same
    -- The sign is kept by one of the shifts and lost by the other.
    have signs := congrArg BitVec.msb same
    rw [BitVec.msb_sshiftRight, BitVec.msb_ushiftRight] at signs
    grind
  · intro either
    rcases either with rfl | positive
    · simp
    · exact BitVec.sshiftRight_eq_of_msb_false positive

/-- A disjunction gives its first operand back exactly if the second one has no bit besides. -/
theorem eq_or_iff : a = a ||| b ↔ b &&& ~~~a = 0#32 := by
  -- Both sides say the same of each bit.
  have bitwise (bit : Nat) (small : bit < 32) : a.getLsbD bit = (a ||| b).getLsbD bit ↔
      (b &&& ~~~a).getLsbD bit = (0#32).getLsbD bit := by
    rw [BitVec.getLsbD_or, BitVec.getLsbD_and, BitVec.getLsbD_not, BitVec.getLsbD_zero,
      decide_eq_true small]
    cases a.getLsbD bit <;> cases b.getLsbD bit <;> decide
  constructor
  · intro same
    exact BitVec.eq_of_getLsbD_eq fun bit small =>
      (bitwise bit small).mp (congrArg (fun word => word.getLsbD bit) same)
  · intro within
    exact BitVec.eq_of_getLsbD_eq fun bit small =>
      (bitwise bit small).mpr (congrArg (fun word => word.getLsbD bit) within)

end Operators

namespace Isa

theorem checked_add (register : BitVec 5) (a b : BitVec 32) :
    checked register (a.toInt + b.toInt) =
      if a.saddOverflow b then .overflow else .write register (a + b) := by
  -- An overflow is a sum outside of the signed words.
  rw [checked, BitVec.saddOverflow, BitVec.ofInt_add, BitVec.ofInt_toInt, BitVec.ofInt_toInt]
  grind

theorem checked_sub (register : BitVec 5) (a b : BitVec 32) :
    checked register (a.toInt - b.toInt) =
      if a.ssubOverflow b then .overflow else .write register (a - b) := by
  rw [checked, BitVec.ssubOverflow, Int.sub_eq_add_neg, BitVec.ofInt_add, BitVec.ofInt_neg,
    BitVec.ofInt_toInt, BitVec.ofInt_toInt, ← BitVec.sub_eq_add_neg]
  grind

/-- What the simulator computes: `OP_OR` reads `rs` twice, and the value that `OP_SRL` and `OP_SRLV`
shift has a sign. -/
def simulated (op : Op) (word : BitVec 32) (registers : Nat → BitVec 32) : Effect :=
  let rs := registers (word.extractLsb' 21 5).toNat
  let rt := registers (word.extractLsb' 16 5).toNat
  match op with
  | .or => .write (word.extractLsb' 11 5) (rs ||| rs)
  | .srl => .write (word.extractLsb' 11 5) (rt.sshiftRight (word.extractLsb' 6 5).toNat)
  | .srlv => .write (word.extractLsb' 11 5) (rt.sshiftRight (rs.toNat % 32))
  | op => effect op word registers

/-- An effect, as the switch of `OneInstruction` leaves it. -/
def Effect.outcome (machine : Machine) : Effect → Except Stop Executed
  | .overflow => machine.raiseException .overflow 0
  | .write register value =>
    .ok ⟨machine.setRegister register.toNat value, machine.registers nextPCReg + 4, 0, 0⟩
  | .divide lo hi =>
    .ok ⟨(machine.setRegister loReg lo).setRegister hiReg hi, machine.registers nextPCReg + 4, 0, 0⟩

theorem execute_simulated (machine : Machine) {op : Op} {word : BitVec 32}
    (defined : Defined op word machine.registers) :
    machine.execute ⟨op.code, word.extractLsb' 21 5, word.extractLsb' 16 5, word.extractLsb' 11 5,
      op.extra word⟩ = (simulated op word machine.registers).outcome machine := by
  -- The operand that was decoded has the value of the field.
  have toInt_immediate : ((word.extractLsb' 0 16).signExtend 32).toInt =
      (word.extractLsb' 0 16).toInt := BitVec.toInt_signExtend_of_le (by decide)
  have toNat_shamt : ((word.extractLsb' 6 5).setWidth 32).toNat = (word.extractLsb' 6 5).toNat :=
    BitVec.toNat_setWidth_of_le (by decide)
  cases op with
  | add =>
    -- The test of the simulator is the one for an overflow.
    simp only [Machine.execute, Op.code, simulated, effect, checked_add, ← add_overflow]
    split <;> rfl
  | addi =>
    -- The immediate operand takes the place of the second register.
    have extra : Op.addi.extra word = (word.extractLsb' 0 16).signExtend 32 := rfl
    simp only [Machine.execute, Op.code, simulated, effect, ← toInt_immediate, checked_add,
      ← add_overflow', extra]
    split <;> rfl
  | sub =>
    simp only [Machine.execute, Op.code, simulated, effect, checked_sub, ← sub_overflow]
    split <;> rfl
  | andi | ori | xori =>
    -- These take the immediate operand without its sign.
    simp only [Machine.execute, Op.code, simulated, effect, ← signExtend_and]
    rfl
  | lui =>
    simp only [Machine.execute, Op.code, simulated, effect, ← signExtend_shiftLeft]
    rfl
  | sll | srl | sra =>
    simp only [Machine.execute, Op.code, simulated, effect, ← toNat_shamt]
    rfl
  | sllv | srlv | srav =>
    -- A shift by a register takes its five low bits.
    simp only [Machine.execute, Op.code, simulated, effect, ← toNat_and_31]
    rfl
  | slti =>
    simp only [Machine.execute, Op.code, simulated, effect, ← toInt_immediate]
    rfl
  | div =>
    -- The quotient fits into a word, so it is the one that the host computes.
    obtain ⟨nonzero, fits⟩ := defined
    have bounded : ¬(machine.registers (word.extractLsb' 21 5).toNat = BitVec.intMin 32 ∧
        machine.registers (word.extractLsb' 16 5).toNat = -1#32) := by
      intro both
      obtain ⟨least, negative⟩ := both
      exact fits ⟨by rw [least]; rfl, by rw [negative]; rfl⟩
    simp only [Machine.execute, Op.code, simulated, effect]
    rw [if_neg nonzero, if_neg bounded, ← BitVec.toInt_srem, BitVec.ofInt_toInt,
      ← BitVec.toInt_sdiv_of_ne_or_ne _ _ (not_and_or.mp bounded), BitVec.ofInt_toInt]
    rfl
  | divu =>
    simp only [Machine.execute, Op.code, simulated, effect]
    -- Unsigned words are divided as the numbers that they are.
    rw [if_neg defined, ← BitVec.toNat_udiv, ← BitVec.toNat_umod, BitVec.ofNat_toNat,
      BitVec.ofNat_toNat, BitVec.setWidth_eq, BitVec.setWidth_eq]
    rfl
  | _ => rfl

/-- Does the simulator leave the register file that the instruction set describes, once the load on
its way is finished? -/
def Follows (machine : Machine) : Effect → Prop
  | .overflow => ∃ after, machine.oneInstruction = .error (.raised .overflow after)
  | .write register value => ∃ after, machine.oneInstruction = .ok after ∧
    ∀ other < numGPRegs,
      after.registers other = (machine.setRegister register.toNat value).landed other
  | .divide lo hi => ∃ after, machine.oneInstruction = .ok after ∧
    after.registers loReg = lo ∧ after.registers hiReg = hi ∧
      ∀ other < numGPRegs, after.registers other = machine.landed other

/-- A register whose value cannot be seen: `R0`, and the target of the load on its way. -/
def Hidden (machine : Machine) (register : BitVec 5) : Prop :=
  register.toNat = 0 ∨ register.toNat = (machine.registers loadReg).toNat

/-- The condition under which the simulator follows the instruction set. -/
def Agrees (op : Op) (word : BitVec 32) (machine : Machine) : Prop :=
  let rs := machine.registers (word.extractLsb' 21 5).toNat
  let rt := machine.registers (word.extractLsb' 16 5).toNat
  match op with
  -- `rt` has no bit that `rs` has not.
  | .or => rt &&& ~~~rs = 0#32 ∨ Hidden machine (word.extractLsb' 11 5)
  -- Nothing is shifted, or the sign bit that is shifted in is clear.
  | .srl => ((word.extractLsb' 6 5).toNat = 0 ∨ rt.msb = false) ∨
    Hidden machine (word.extractLsb' 11 5)
  | .srlv => (rs.toNat % 32 = 0 ∨ rt.msb = false) ∨ Hidden machine (word.extractLsb' 11 5)
  | _ => True

section Run

variable {machine : Machine} {word : BitVec 32} {table : TranslationTable} {op : Op}

/-- Behind the switch the load on its way is finished, and only program counters are assigned. -/
theorem oneInstruction_ok {fetched : Machine} {outcome : Executed}
    (fetch : machine.readMem (machine.registers pcReg) 4 = .ok (word, fetched))
    (executed : fetched.execute (decode word) = .ok outcome)
    (pending : (outcome.machine.registers loadReg).toNat < numGPRegs) :
    ∃ after, machine.oneInstruction = .ok after ∧
      ∀ register < pcReg, after.registers register = outcome.machine.landed register := by
  obtain ⟨landed, done, -, -, general⟩ :=
    Machine.delayedLoad_ok pending outcome.nextLoadReg outcome.nextLoadValue
  refine ⟨landed.advance outcome.pcAfter, ?_, fun register small => ?_⟩
  · rw [Machine.oneInstruction, fetch]
    simp only [bind, Except.bind, executed, done]
    rfl
  · rw [← general register (Nat.lt_trans small (by decide))]
    refine Machine.advance_of_ne landed _ ?_
    simp only [pcReg, nextPCReg, prevPCReg] at small ⊢
    omega

/-- The simulator follows the instruction set as far as it computes the same effect. -/
theorem follows_simulated
    (fetch : Nachos.readMem machine.table machine.mainMemory (machine.registers pcReg) 4 =
      .ok (word, table))
    (pending : (machine.registers loadReg).toNat < numGPRegs)
    (known : instruction word = some op) (defined : Defined op word machine.registers) :
    Follows machine (simulated op word machine.registers) := by
  -- The fetch changes the reference bits of the table only.
  have fetched : machine.readMem (machine.registers pcReg) 4 =
      .ok (word, { machine with table := table }) := by rw [Machine.readMem, fetch]
  have executed : Machine.execute { machine with table := table } (decode word) =
      (simulated op word machine.registers).outcome { machine with table := table } := by
    rw [decode_instruction known]
    exact execute_simulated { machine with table := table } defined
  cases effect : simulated op word machine.registers with
  | overflow =>
    -- The switch ends in the exception, which nothing follows.
    rw [effect, Effect.outcome] at executed
    obtain ⟨after, done, -⟩ := @Machine.raiseException_raised Executed
      { machine with table := table } pending .overflow 0
    refine ⟨after, ?_⟩
    rw [Machine.oneInstruction, fetched]
    simp only [bind, Except.bind, executed, done]
  | write register value =>
    rw [effect] at executed
    -- A general register is not the one that names the target of a load.
    have apart : loadReg ≠ register.toNat := by
      have small := register.isLt
      rw [loadReg]
      omega
    obtain ⟨after, done, general⟩ := oneInstruction_ok fetched executed
      (by simpa [Machine.setRegister, Function.update_of_ne apart] using pending)
    exact ⟨after, done, fun other small => general other (Nat.lt_trans small (by decide))⟩
  | divide lo hi =>
    rw [effect] at executed
    obtain ⟨after, done, general⟩ := oneInstruction_ok fetched executed
      (by simpa [Machine.setRegister, loadReg, loReg, hiReg] using pending)
    have lands (other : Nat) (small : other < pcReg) : after.registers other =
        if other = hiReg then hi else if other = loReg then lo else machine.landed other := by
      rw [general other small]
      simp only [Machine.landed, Machine.setRegister, Function.update_apply, loadReg, loadValueReg,
        loReg, hiReg, numGPRegs, Nat.reduceEqDiff, if_false] at pending ⊢
      -- Neither of the two is `R0` or the target of a load.
      split_ifs <;> first | omega | simp_all
    have general (other : Nat) (small : other < numGPRegs) :
        after.registers other = machine.landed other := by
      rw [lands other (Nat.lt_trans small (by decide)), if_neg, if_neg]
      · exact Nat.ne_of_lt (Nat.lt_trans small (by decide))
      · exact Nat.ne_of_lt small
    exact ⟨after, done, lands loReg (by decide), lands hiReg (by decide), general⟩

/-- Two values in one register can be told apart afterwards unless the register is hidden. -/
theorem follows_write_iff {register : BitVec 5} {value value' : BitVec 32}
    (follows : Follows machine (.write register value)) :
    Follows machine (.write register value') ↔ value = value' ∨ Hidden machine register := by
  -- The instruction ends in one state only, whatever value is asked for.
  obtain ⟨after, done, general⟩ := follows
  have apart : loadReg ≠ register.toNat ∧ loadValueReg ≠ register.toNat := by
    have small := register.isLt
    rw [loadReg, loadValueReg]
    omega
  have lands (value : BitVec 32) (other : Nat) :
      (machine.setRegister register.toNat value).landed other =
        if other = 0 then 0
        else if other = (machine.registers loadReg).toNat then machine.registers loadValueReg
        else if other = register.toNat then value else machine.registers other := by
    simp only [Machine.landed, Machine.setRegister, Function.update_of_ne apart.1,
      Function.update_of_ne apart.2, Function.update_apply]
  constructor
  · intro follows'
    obtain ⟨after', done', general'⟩ := follows'
    have same : after = after' := by
      rw [done] at done'
      exact Except.ok.inj done'
    -- What is seen in the register itself tells the two values apart.
    have seen := (general register.toNat register.isLt).symm.trans
      (same ▸ general' register.toNat register.isLt)
    rw [lands, lands] at seen
    rw [Hidden]
    grind
  · intro unseen
    refine ⟨after, done, fun other small => ?_⟩
    rw [general other small, lands, lands]
    rw [Hidden] at unseen
    grind

/-- The simulator follows the instruction set on these instructions exactly under the condition. -/
theorem follows_iff
    (fetch : Nachos.readMem machine.table machine.mainMemory (machine.registers pcReg) 4 =
      .ok (word, table))
    (pending : (machine.registers loadReg).toNat < numGPRegs)
    (known : instruction word = some op) (defined : Defined op word machine.registers) :
    Follows machine (effect op word machine.registers) ↔ Agrees op word machine := by
  -- Three instructions compute another value than the one asked for.
  have follows := follows_simulated fetch pending known defined
  cases op with
  | or =>
    rw [effect, Agrees, follows_write_iff follows, BitVec.or_self]
    exact or_congr_left (eq_or_iff _ _)
  | srl =>
    rw [effect, Agrees, follows_write_iff follows]
    exact or_congr_left (sshiftRight_eq_iff _ _)
  | srlv =>
    rw [effect, Agrees, follows_write_iff follows]
    exact or_congr_left (sshiftRight_eq_iff _ _)
  | _ => exact iff_of_true follows trivial

end Run

/-- A machine at a word of its program, in which `$1` and `$2` have values. -/
def started (word : BitVec 32) (first second : BitVec 32) : Machine where
  registers := fun register => if register = 1 then first else if register = 2 then second else 0
  mainMemory := fun address =>
    if address < 4 then word.extractLsb' (8 * address) 8 else 0
  table := .pageTable [⟨0, 0, true, false, false, false⟩]

/-- `srl $3, $2, 1` of a value without a sign. -/
theorem follows_started_srl : Follows (started 0x00021842 0 6)
    (effect .srl 0x00021842 (started 0x00021842 0 6).registers) :=
  (@follows_iff (started 0x00021842 0 6) 0x00021842 _ .srl rfl (by decide) (by decide) trivial).mpr
    (.inl (.inr (by decide)))

/-- `or $3, $1, $2` with 4 and 2 leaves 4, and `srl $3, $2, 1` keeps the sign of its operand. -/
theorem not_follows_started :
    (instruction 0x00221825 = some .or ∧ ¬Follows (started 0x00221825 4 2)
      (effect .or 0x00221825 (started 0x00221825 4 2).registers)) ∧
    (instruction 0x00021842 = some .srl ∧ ¬Follows (started 0x00021842 0 0x80000000)
      (effect .srl 0x00021842 (started 0x00021842 0 0x80000000).registers)) := by
  -- In both cases register 3 holds another value at the end.
  refine ⟨⟨rfl, ?_⟩, rfl, ?_⟩
  · intro follows
    obtain ⟨after, done, general⟩ := follows
    cases done
    exact absurd (general 3 (by decide)) (by decide)
  · intro follows
    obtain ⟨after, done, general⟩ := follows
    cases done
    exact absurd (general 3 (by decide)) (by decide)

end Isa

end Nachos
