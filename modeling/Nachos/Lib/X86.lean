import Mathlib.Algebra.Group.Nat.Defs
import Mathlib.Logic.Function.Basic
import Mathlib.Data.List.Nodup

/-! The part of a 64-bit x86 processor that moves words between registers and memory. -/

namespace X86

/-- A word of eight bytes, which is also the address of one. -/
abbrev Word := BitVec 64

/-- The general registers. -/
inductive Reg where
  | rsp | rax | rbx | rcx | rdx | rbp | rsi | rdi | r8 | r9 | r10 | r11 | r12 | r13 | r14 | r15
  deriving DecidableEq, Repr

/-- Registers and memory; the words of memory are at addresses that are multiples of eight. -/
structure Core where
  regs : Reg → Word
  memory : Word → Word

/-- The instructions, with their operands from left to right. -/
inductive Instr where
  /-- `mov %source,offset(%base)` -/
  | store (source : Reg) (offset : Nat) (base : Reg)
  /-- `mov offset(%base),%target` -/
  | load (offset : Nat) (base target : Reg)
  /-- `mov %source,%target` -/
  | move (source target : Reg)
  | push (source : Reg)
  | pop (target : Reg)
  /-- `callq *%target` -/
  | call (target : Reg)
  | ret
  deriving DecidableEq, Repr

/-- The address at some bytes behind a base. -/
def field (base : Word) (offset : Nat) : Word := base + BitVec.ofNat 64 offset

/-- An address of a word. -/
def Aligned (address : Word) : Prop := address.toNat % 8 = 0

/-- Whether an address is one of a word can be decided. -/
instance (address : Word) : Decidable (Aligned address) :=
  inferInstanceAs (Decidable (_ = 0))

namespace Core

/-- Read a word; other addresses than those of words are not modelled. -/
def read (cpu : Core) (address : Word) : Option Word :=
  if Aligned address then some (cpu.memory address) else none

/-- Write a word. -/
def write (cpu : Core) (address value : Word) : Option Core :=
  if Aligned address then some { cpu with memory := Function.update cpu.memory address value }
  else none

/-- Set a register. -/
def setReg (cpu : Core) (target : Reg) (value : Word) : Core :=
  { cpu with regs := Function.update cpu.regs target value }

/-- An instruction that leaves the flow of control alone. -/
def exec (cpu : Core) : Instr → Option Core
  | .store source offset base => cpu.write (field (cpu.regs base) offset) (cpu.regs source)
  | .load offset base target => do
    let value ← cpu.read (field (cpu.regs base) offset)
    return cpu.setReg target value
  | .move source target => some (cpu.setReg target (cpu.regs source))
  | .push source => (cpu.setReg .rsp (cpu.regs .rsp - 8)).write (cpu.regs .rsp - 8) (cpu.regs source)
  | .pop target => do
    let value ← cpu.read (cpu.regs .rsp)
    return (cpu.setReg .rsp (cpu.regs .rsp + 8)).setReg target value
  | .call _ | .ret => none

/-- Instructions one after the other. -/
def run (cpu : Core) : List Instr → Option Core
  | [] => some cpu
  | instr :: rest => do
    let cpu ← cpu.exec instr
    cpu.run rest

/-- `ret`: where control goes, and what the registers are there. -/
def ret (cpu : Core) : Option (Word × Core) := do
  let target ← cpu.read (cpu.regs .rsp)
  return (target, cpu.setReg .rsp (cpu.regs .rsp + 8))

end Core

/-- The routine calls others, one after the other; the last of them may not have returned. -/
inductive Executes (abi : Core → Core → Prop) : List Instr → Core → List (Word × Word) → Prop
  /-- It gets no further while it is watched. -/
  | stop {code : List Instr} {cpu : Core} : Executes abi code cpu []
  | step {instr : Instr} {code : List Instr} {cpu after : Core} {calls : List (Word × Word)} :
      cpu.exec instr = some after → Executes abi code after calls →
        Executes abi (instr :: code) cpu calls
  /-- It calls a routine, with an argument in `rdi`. -/
  | called {target : Reg} {code : List Instr} {cpu : Core} :
      Executes abi (.call target :: code) cpu [(cpu.regs target, cpu.regs .rdi)]
  /-- The routine that it called has returned as all routines do. -/
  | returned {target : Reg} {code : List Instr} {cpu after : Core} {calls : List (Word × Word)} :
      abi cpu after → Executes abi code after calls →
        Executes abi (.call target :: code) cpu ((cpu.regs target, cpu.regs .rdi) :: calls)

/--
The routine gets to each of these calls as soon as the one before it has returned.

A call is told by what it must be: the routine that is called, and the argument in `rdi`. What the
callee does is left open, and behind the last call there is none.
-/
inductive Makes (abi : Core → Core → Prop) :
    List (Word × Word → Prop) → List Instr → Core → Prop
  | nil {code : List Instr} {cpu : Core} (quiet : ∀ target, .call target ∉ code) :
      Makes abi [] code cpu
  | call {expected : Word × Word → Prop} {rest : List (Word × Word → Prop)}
      {first code : List Instr} {target : Reg} {cpu ready : Core}
      (ran : cpu.run first = some ready) (meets : expected (ready.regs target, ready.regs .rdi))
      (later : ∀ after, abi ready after → Makes abi rest code after) :
      Makes abi (expected :: rest) (first ++ .call target :: code) cpu

/-- Store the values of registers behind a base. -/
def stores (base : Word) (offset : Reg → Nat) (values : Reg → Word) (regs : List Reg)
    (memory : Word → Word) : Word → Word :=
  regs.foldl (fun memory reg => Function.update memory (field base (offset reg)) (values reg)) memory

variable {cpu : Core} {base address : Word} {offset : Reg → Nat} {values : Reg → Word}
  {memory : Word → Word} {regs : List Reg} {reg : Reg}

/-- Small offsets are told apart. -/
theorem field_inj {first second : Nat} (small : first < 2 ^ 64) (small' : second < 2 ^ 64) :
    field base first = field base second ↔ first = second := by
  constructor
  · intro same
    have equal := congrArg BitVec.toNat ((BitVec.add_right_inj base).mp same)
    rw [BitVec.toNat_ofNat, BitVec.toNat_ofNat, Nat.mod_eq_of_lt small,
      Nat.mod_eq_of_lt small'] at equal
    exact equal
  · rintro rfl
    rfl

/-- Words follow each other at multiples of eight. -/
theorem aligned_field (aligned : Aligned base) {bytes : Nat} (words : bytes % 8 = 0) :
    Aligned (field base bytes) := by
  unfold Aligned field at *
  rw [BitVec.toNat_add, BitVec.toNat_ofNat]
  omega

/-- Nothing behind a base is the base itself. -/
theorem field_zero (base : Word) : field base 0 = base := BitVec.add_zero base

/-- Instructions follow each other. -/
theorem run_append (cpu : Core) (first second : List Instr) :
    cpu.run (first ++ second) = (cpu.run first).bind fun cpu => cpu.run second := by
  induction first generalizing cpu with
  | nil => rfl
  | cons instr rest ih =>
    rw [List.cons_append, Core.run, Core.run]
    cases cpu.exec instr with
    | none => rfl
    | some after => exact ih after

/-- A word that is written where words are is there. -/
theorem write_eq (aligned : Aligned address) (value : Word) :
    cpu.write address value = some ⟨cpu.regs, Function.update cpu.memory address value⟩ :=
  if_pos aligned

/-- A word is read where words are. -/
theorem read_eq (aligned : Aligned address) : cpu.read address = some (cpu.memory address) :=
  if_pos aligned

section Instructions

variable {source target : Reg} {bytes : Nat} {value : Word} {rest : List Instr}

/-- A register is stored. -/
theorem run_store (place : field (cpu.regs target) bytes = address) (aligned : Aligned address) :
    cpu.run (.store source bytes target :: rest) =
      Core.run ⟨cpu.regs, Function.update cpu.memory address (cpu.regs source)⟩ rest := by
  subst place
  rw [Core.run, Core.exec, write_eq aligned]
  rfl

/-- A register is loaded. -/
theorem run_load (place : field (cpu.regs source) bytes = address) (aligned : Aligned address)
    (found : cpu.memory address = value) :
    cpu.run (.load bytes source target :: rest) = (cpu.setReg target value).run rest := by
  subst place found
  rw [Core.run, Core.exec, read_eq aligned]
  rfl

/-- A register is pushed. -/
theorem run_push (place : cpu.regs .rsp - 8 = address) (aligned : Aligned address) :
    cpu.run (.push source :: rest) = Core.run ⟨Function.update cpu.regs .rsp address,
      Function.update cpu.memory address (cpu.regs source)⟩ rest := by
  subst place
  rw [Core.run, Core.exec, write_eq aligned]
  rfl

/-- A register is popped. -/
theorem run_pop (place : cpu.regs .rsp = address) (aligned : Aligned address)
    (found : cpu.memory address = value) :
    cpu.run (.pop target :: rest) = Core.run
      ⟨Function.update (Function.update cpu.regs .rsp (address + 8)) target value, cpu.memory⟩
      rest := by
  subst place found
  rw [Core.run, Core.exec, read_eq aligned]
  rfl

end Instructions

section Calls

variable {abi : Core → Core → Prop} {target : Reg} {code : List Instr} {calls : List (Word × Word)}
  {after : Core}

/-- A routine that gets through some instructions is watched behind them, or not so far. -/
theorem Executes.append {first : List Instr} (executes : Executes abi (first ++ code) cpu calls)
    (ran : cpu.run first = some after) : calls = [] ∨ Executes abi code after calls := by
  induction first generalizing cpu with
  | nil =>
    obtain rfl := Option.some.inj ran
    exact .inr executes
  | cons instr rest ih =>
    rw [Core.run] at ran
    obtain ⟨middle, done, later⟩ := Option.bind_eq_some_iff.mp ran
    cases executes with
    | stop => exact .inl rfl
    | step done' executes =>
      obtain rfl := Option.some.inj (done.symm.trans done')
      exact ih executes later
    -- A call would not have been got through.
    | called | returned => cases done

/-- A routine that calls another one is watched behind it, when it has returned. -/
theorem Executes.call (executes : Executes abi (.call target :: code) cpu calls) :
    calls = [] ∨ ∃ later, calls = (cpu.regs target, cpu.regs .rdi) :: later ∧
      (later = [] ∨ ∃ after, abi cpu after ∧ Executes abi code after later) := by
  cases executes with
  | stop => exact .inl rfl
  | step done => cases done
  | called => exact .inr ⟨[], rfl, .inl rfl⟩
  | returned back executes => exact .inr ⟨_, rfl, .inr ⟨_, back, executes⟩⟩

/-- A routine that has no more calls in it calls nothing more. -/
theorem Executes.quiet (quiet : ∀ target, .call target ∉ code) (executes : Executes abi code cpu calls) :
    calls = [] := by
  induction executes with
  | stop => rfl
  | step done executes ih => exact ih fun target member => quiet target (List.mem_cons_of_mem _ member)
  | called | returned => exact absurd List.mem_cons_self (quiet _)

/-- Whatever a routine is seen to call is what it must call, as far as it has been watched. -/
theorem Makes.executes {expected : List (Word × Word → Prop)} (makes : Makes abi expected code cpu)
    (executes : Executes abi code cpu calls) :
    ∃ made left, expected = made ++ left ∧ List.Forall₂ (fun meets call => meets call) made calls := by
  induction makes generalizing calls with
  | nil quiet => exact ⟨[], [], rfl, executes.quiet quiet ▸ .nil⟩
  -- It may have been watched up to the next call, or further.
  | @call expected rest first code target cpu ready ran meets later ih =>
    rcases executes.append ran with rfl | executes
    · exact ⟨[], _, rfl, .nil⟩
    -- The call is reached, and its callee may have returned or not.
    rcases executes.call with rfl | ⟨calls, rfl, pending⟩
    · exact ⟨[], _, rfl, .nil⟩
    rcases pending with rfl | ⟨after, back, executes⟩
    · exact ⟨[expected], rest, rfl, .cons meets .nil⟩
    · obtain ⟨made, left, rfl, all⟩ := ih after back executes
      exact ⟨expected :: made, left, rfl, .cons meets all⟩

end Calls

/-- Registers are stored one after the other. -/
theorem run_stores {source : Reg} (aligned : Aligned (cpu.regs source))
    (words : ∀ reg, offset reg % 8 = 0) (regs : List Reg) :
    cpu.run (regs.map fun reg => .store reg (offset reg) source) =
      some ⟨cpu.regs, stores (cpu.regs source) offset cpu.regs regs cpu.memory⟩ := by
  induction regs generalizing cpu with
  | nil => rfl
  | cons reg rest ih =>
    rw [List.map_cons, Core.run, Core.exec, write_eq (aligned_field aligned (words reg))]
    exact ih aligned

/-- Registers are loaded one after the other. -/
theorem run_loads {source : Reg} (aligned : Aligned (cpu.regs source))
    (words : ∀ reg, offset reg % 8 = 0) (regs : List Reg) (kept : source ∉ regs) :
    cpu.run (regs.map fun reg => .load (offset reg) source reg) =
      some ⟨fun reg => if reg ∈ regs then cpu.memory (field (cpu.regs source) (offset reg))
        else cpu.regs reg, cpu.memory⟩ := by
  induction regs generalizing cpu with
  | nil => simp [Core.run]
  | cons first rest ih =>
    rw [List.mem_cons, not_or] at kept
    have same : (cpu.setReg first (cpu.memory (field (cpu.regs source) (offset first)))).regs
        source = cpu.regs source := Function.update_of_ne kept.1 _ _
    rw [List.map_cons, Core.run, Core.exec, read_eq (aligned_field aligned (words first))]
    refine (ih (by rw [same]; exact aligned) kept.2).trans ?_
    rw [same]
    congr 2
    -- A register that is loaded again gets the same word.
    funext reg
    by_cases again : reg ∈ rest
    · simp [again, Core.setReg]
    · by_cases now : reg = first
      · simp [now, Core.setReg]
      · simp [again, now, Core.setReg]

/-- What is not stored to stays what it was. -/
theorem stores_of_ne (outside : ∀ reg ∈ regs, address ≠ field base (offset reg)) :
    stores base offset values regs memory address = memory address := by
  induction regs generalizing memory with
  | nil => rfl
  | cons reg rest ih =>
    refine (ih fun other member => outside other (List.mem_cons_of_mem _ member)).trans ?_
    exact Function.update_of_ne (outside reg List.mem_cons_self) _ _

/-- Each register is where it was stored. -/
theorem stores_field (apart : ∀ first second, offset first = offset second → first = second)
    (small : ∀ reg, offset reg < 2 ^ 64) (distinct : regs.Nodup) (member : reg ∈ regs) :
    stores base offset values regs memory (field base (offset reg)) = values reg := by
  induction regs generalizing memory with
  | nil => cases member
  | cons first rest ih =>
    obtain ⟨absent, distinct⟩ := List.nodup_cons.mp distinct
    rcases List.mem_cons.mp member with rfl | member
    · -- The registers that follow are stored elsewhere.
      change stores base offset values rest (Function.update memory _ _) _ = _
      rw [stores_of_ne fun other among same => ?_, Function.update_self]
      have equal := (field_inj (small reg) (small other)).mp same
      exact absent (apart reg other equal ▸ among)
    · exact ih distinct member

/-- Only the values that are stored matter. -/
theorem stores_congr {other : Reg → Word} (same : ∀ reg ∈ regs, other reg = values reg) :
    stores base offset other regs memory = stores base offset values regs memory := by
  induction regs generalizing memory with
  | nil => rfl
  | cons first rest ih =>
    change stores base offset other rest (Function.update memory _ (other first)) =
      stores base offset values rest (Function.update memory _ (values first))
    rw [same first List.mem_cons_self]
    exact ih fun reg member => same reg (List.mem_cons_of_mem _ member)

end X86
