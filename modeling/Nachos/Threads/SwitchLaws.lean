import Nachos.Threads.Switch

/-! To each thread, `SWITCH` is a call that returns and changes nothing. -/

namespace Nachos.Threads.Switch

open X86

variable {cpu : Core} {thread old new address : Word} {memory : Word → Word} {reg : Reg}

/-- The registers that are saved in front of the return address. -/
def savedFirst : List Reg := [.rax, .rbx, .rcx, .rdx, .rsi, .rdi, .rbp, .rsp]

/-- The registers that are saved behind it. -/
def savedLast : List Reg := [.r8, .r9, .r10, .r11, .r12, .r13, .r14, .r15]

/-- The registers that are restored while `rsi` points to the thread. -/
def restored : List Reg :=
  [.rbx, .rcx, .rdx, .rdi, .rbp, .rsp, .r8, .r9, .r10, .r11, .r12, .r13, .r14, .r15]

/-- `SWITCH` in its parts. -/
theorem switch_eq : switch = (savedFirst.map fun reg => .store reg (offset reg) .rdi) ++
    ([.load 0 .rsp .rax, .store .rax pc .rdi] ++
      ((savedLast.map fun reg => .store reg (offset reg) .rdi) ++
        ((restored.map fun reg => .load (offset reg) .rsi reg) ++
          [.load pc .rsi .rax, .store .rax 0 .rsp, .move .rsi .rax,
            .load (offset .rsi) .rsi .rsi, .load (offset .rax) .rax .rax]))) := rfl

/-- The offsets are those of words. -/
theorem offset_words (reg : Reg) : offset reg % 8 = 0 := by cases reg <;> rfl

/-- The offsets are small. -/
theorem offset_small (reg : Reg) : offset reg < 2 ^ 64 := by cases reg <;> decide

/-- Each register has an offset of its own. -/
theorem offset_inj (first second : Reg) (same : offset first = offset second) : first = second := by
  cases first <;> cases second <;> first | rfl | cases same

/-- The pc storage is none of a register. -/
theorem offset_ne_pc (reg : Reg) : offset reg ≠ pc := by cases reg <;> decide

/-- The registers are apart from the pc storage in every object. -/
theorem field_ne_pc (thread : Word) (reg : Reg) : field thread (offset reg) ≠ field thread pc :=
  fun same => offset_ne_pc reg ((field_inj (offset_small reg) (by decide)).mp same)

/-- The memory once the running thread has been saved. -/
def saved (cpu : Core) : Word → Word :=
  stores (cpu.regs .rdi) offset cpu.regs savedLast
    (Function.update (stores (cpu.regs .rdi) offset cpu.regs savedFirst cpu.memory)
      (field (cpu.regs .rdi) pc) (cpu.memory (cpu.regs .rsp)))

/-- Every register is saved at its offset. -/
theorem saved_field (cpu : Core) (reg : Reg) :
    saved cpu (field (cpu.regs .rdi) (offset reg)) = cpu.regs reg := by
  by_cases last : reg ∈ savedLast
  · exact stores_field offset_inj offset_small (by decide) last
  · have first : reg ∈ savedFirst := by cases reg <;> first | decide | exact absurd (by decide) last
    rw [saved, stores_of_ne fun other member same => ?_, Function.update_of_ne (field_ne_pc _ reg)]
    · exact stores_field offset_inj offset_small (by decide) first
    · have equal := (field_inj (offset_small reg) (offset_small other)).mp same
      exact last (offset_inj _ _ equal ▸ member)

/-- The return address is saved in the pc storage. -/
theorem saved_pc (cpu : Core) :
    saved cpu (field (cpu.regs .rdi) pc) = cpu.memory (cpu.regs .rsp) := by
  rw [saved, stores_of_ne fun other _ same => field_ne_pc _ other same.symm, Function.update_self]

/-- Nothing else is changed. -/
theorem saved_of_ne (outside : ¬ InObject (cpu.regs .rdi) address) :
    saved cpu address = cpu.memory address := by
  rw [InObject, not_or, not_exists] at outside
  rw [saved, stores_of_ne fun other _ => outside.2 other, Function.update_of_ne outside.1,
    stores_of_ne fun other _ => outside.2 other]

/-- The registers of the thread that goes on. -/
def resumedRegs (memory : Word → Word) (thread : Word) : Reg → Word :=
  Function.update (fun reg => memory (field thread (offset reg))) .rsp
    (memory (field thread (offset .rsp)) + 8)

/-- The first half of `SWITCH` saves everything. -/
theorem run_save (aligned : Aligned (cpu.regs .rdi)) (stacked : Aligned (cpu.regs .rsp))
    (outside : ¬ InObject (cpu.regs .rdi) (cpu.regs .rsp)) (rest : List Instr) :
    cpu.run ((savedFirst.map fun reg => .store reg (offset reg) .rdi) ++
      ([.load 0 .rsp .rax, .store .rax pc .rdi] ++
        ((savedLast.map fun reg => .store reg (offset reg) .rdi) ++ rest))) =
      Core.run ⟨Function.update cpu.regs .rax (cpu.memory (cpu.regs .rsp)), saved cpu⟩ rest := by
  -- The return address has not been overwritten when it is read.
  have there : stores (cpu.regs .rdi) offset cpu.regs savedFirst cpu.memory (cpu.regs .rsp) =
      cpu.memory (cpu.regs .rsp) := by
    rw [InObject, not_or, not_exists] at outside
    exact stores_of_ne fun other _ => outside.2 other
  have middle : ∀ (memory : Word → Word) (later : List Instr),
      memory (cpu.regs .rsp) = cpu.memory (cpu.regs .rsp) →
        Core.run ⟨cpu.regs, memory⟩ (.load 0 .rsp .rax :: .store .rax pc .rdi :: later) =
          Core.run ⟨Function.update cpu.regs .rax (cpu.memory (cpu.regs .rsp)), Function.update
            memory (field (cpu.regs .rdi) pc) (cpu.memory (cpu.regs .rsp))⟩ later := by
    intro memory later found
    calc Core.run ⟨cpu.regs, memory⟩ (.load 0 .rsp .rax :: .store .rax pc .rdi :: later)
      _ = Core.run ⟨Function.update cpu.regs .rax (cpu.memory (cpu.regs .rsp)), memory⟩
          (.store .rax pc .rdi :: later) := run_load (field_zero _) stacked found
      _ = _ := run_store rfl (aligned_field aligned (by decide))
  have last : ∀ (regs : Reg → Word) (memory : Word → Word), regs .rdi = cpu.regs .rdi →
      Core.run ⟨regs, memory⟩ ((savedLast.map fun reg => .store reg (offset reg) .rdi) ++ rest) =
        Core.run ⟨regs, stores (cpu.regs .rdi) offset regs savedLast memory⟩ rest := by
    intro regs memory same
    rw [← same] at aligned ⊢
    rw [run_append, run_stores aligned offset_words]
    rfl
  rw [run_append, run_stores aligned offset_words, Option.bind_some]
  refine (middle _ _ there).trans ((last (Function.update cpu.regs .rax _) _ rfl).trans ?_)
  -- The register that has held the return address is none of the last ones.
  have same : ∀ reg ∈ savedLast, Function.update cpu.regs .rax (cpu.memory (cpu.regs .rsp)) reg =
      cpu.regs reg := by
    intro reg member
    refine Function.update_of_ne ?_ _ _
    rintro rfl
    exact absurd member (by decide)
  rw [stores_congr same]
  rfl

/-- The second half restores everything, and puts the return address back on the stack. -/
theorem run_restore (aligned : Aligned (cpu.regs .rsi))
    (stacked : Aligned (cpu.memory (field (cpu.regs .rsi) (offset .rsp))))
    (outside : ¬ InObject (cpu.regs .rsi) (cpu.memory (field (cpu.regs .rsi) (offset .rsp)))) :
    cpu.run ((restored.map fun reg => .load (offset reg) .rsi reg) ++
        [.load pc .rsi .rax, .store .rax 0 .rsp, .move .rsi .rax,
          .load (offset .rsi) .rsi .rsi, .load (offset .rax) .rax .rax]) =
      some ⟨fun reg => cpu.memory (field (cpu.regs .rsi) (offset reg)),
        Function.update cpu.memory (cpu.memory (field (cpu.regs .rsi) (offset .rsp)))
          (cpu.memory (field (cpu.regs .rsi) pc))⟩ := by
  rw [InObject, not_or, not_exists] at outside
  rw [run_append, run_loads aligned offset_words restored (by decide), Option.bind_some]
  generalize source : cpu.regs .rsi = new at *
  have fields : ∀ reg, Aligned (field new (offset reg)) :=
    fun reg => aligned_field aligned (offset_words reg)
  -- The word on the stack is none of the object.
  have kept : ∀ reg, Function.update cpu.memory (cpu.memory (field new (offset .rsp)))
      (cpu.memory (field new pc)) (field new (offset reg)) = cpu.memory (field new (offset reg)) :=
    fun reg => Function.update_of_ne (fun same => outside.2 reg same.symm) _ _
  generalize start : (fun reg => if reg ∈ restored then cpu.memory (field new (offset reg))
    else cpu.regs reg) = regs
  have stack : regs .rsp = cpu.memory (field new (offset .rsp)) := by rw [← start]; rfl
  have object : regs .rsi = new := by rw [← start, ← source]; rfl
  calc Core.run ⟨regs, cpu.memory⟩ [.load pc .rsi .rax, .store .rax 0 .rsp, .move .rsi .rax,
          .load (offset .rsi) .rsi .rsi, .load (offset .rax) .rax .rax]
    _ = Core.run ⟨Function.update regs .rax (cpu.memory (field new pc)), cpu.memory⟩
        [.store .rax 0 .rsp, .move .rsi .rax, .load (offset .rsi) .rsi .rsi,
          .load (offset .rax) .rax .rax] :=
      run_load (congrArg (field · pc) object) (aligned_field aligned (by decide)) rfl
    _ = Core.run ⟨Function.update regs .rax (cpu.memory (field new pc)), Function.update cpu.memory
          (cpu.memory (field new (offset .rsp))) (cpu.memory (field new pc))⟩
        [.move .rsi .rax, .load (offset .rsi) .rsi .rsi, .load (offset .rax) .rax .rax] :=
      run_store ((field_zero _).trans stack) stacked
    _ = Core.run ⟨Function.update regs .rax new, Function.update cpu.memory
          (cpu.memory (field new (offset .rsp))) (cpu.memory (field new pc))⟩
        [.load (offset .rsi) .rsi .rsi, .load (offset .rax) .rax .rax] := by
      change Core.run ⟨Function.update (Function.update regs .rax _) .rax (regs .rsi), _⟩ _ = _
      rw [Function.update_idem, object]
    _ = Core.run ⟨Function.update (Function.update regs .rax new) .rsi
            (cpu.memory (field new (offset .rsi))), Function.update cpu.memory
          (cpu.memory (field new (offset .rsp))) (cpu.memory (field new pc))⟩
        [.load (offset .rax) .rax .rax] :=
      run_load (congrArg (field · (offset .rsi)) object) (fields _) (kept _)
    _ = Core.run ⟨Function.update (Function.update (Function.update regs .rax new) .rsi
            (cpu.memory (field new (offset .rsi)))) .rax (cpu.memory (field new (offset .rax))),
          Function.update cpu.memory (cpu.memory (field new (offset .rsp)))
            (cpu.memory (field new pc))⟩ [] := run_load rfl (fields _) (kept _)
    _ = some ⟨fun reg => cpu.memory (field new (offset reg)), Function.update cpu.memory
          (cpu.memory (field new (offset .rsp))) (cpu.memory (field new pc))⟩ := by
      rw [Core.run, ← start]
      congr 2
      funext reg
      cases reg <;> rfl

/-- `SWITCH` saves the thread at `rdi`, and goes on with the one at `rsi`. -/
theorem doSwitch_eq (saves : Aligned (cpu.regs .rdi)) (restores : Aligned (cpu.regs .rsi))
    (stacked : Aligned (cpu.regs .rsp))
    (stacked' : Aligned (cpu.memory (field (cpu.regs .rsi) (offset .rsp))))
    (outside : ¬ InObject (cpu.regs .rdi) (cpu.regs .rsp))
    (outside' : ¬ InObject (cpu.regs .rsi) (cpu.memory (field (cpu.regs .rsi) (offset .rsp))))
    (apart : ∀ address, InObject (cpu.regs .rsi) address → ¬ InObject (cpu.regs .rdi) address) :
    doSwitch cpu = some (cpu.memory (field (cpu.regs .rsi) pc),
      ⟨resumedRegs cpu.memory (cpu.regs .rsi),
        Function.update (saved cpu) (cpu.memory (field (cpu.regs .rsi) (offset .rsp)))
          (cpu.memory (field (cpu.regs .rsi) pc))⟩) := by
  -- Saving the one thread has not touched the object of the other one.
  have kept : ∀ reg, saved cpu (field (cpu.regs .rsi) (offset reg)) =
      cpu.memory (field (cpu.regs .rsi) (offset reg)) :=
    fun reg => saved_of_ne (apart _ (.inr ⟨reg, rfl⟩))
  have keptPc : saved cpu (field (cpu.regs .rsi) pc) = cpu.memory (field (cpu.regs .rsi) pc) :=
    saved_of_ne (apart _ (.inl rfl))
  rw [doSwitch, switch_eq, run_save saves stacked outside]
  generalize shape : (⟨Function.update cpu.regs .rax (cpu.memory (cpu.regs .rsp)), saved cpu⟩ : Core)
    = middle
  have object : middle.regs .rsi = cpu.regs .rsi := by rw [← shape]; rfl
  have memory : middle.memory = saved cpu := by rw [← shape]
  rw [run_restore (by rw [object]; exact restores) (by rw [object, memory, kept]; exact stacked')
    (by rw [object, memory, kept]; exact outside'), object, memory]
  simp only [kept, keptPc]
  change Core.ret _ = _
  rw [Core.ret, read_eq stacked']
  change some (Function.update (saved cpu) _ _ _, _) = _
  rw [Function.update_self]
  rfl

section Allocation

variable {linked : Linked} {object stack func arg : Word}

/-- The word on which `StackAllocate` puts the address of `ThreadRoot`. -/
theorem stackTop_eq (stack : Word) :
    field stack (8 * (stackSize - 4)) - 8 = field stack (8 * 4091) := by
  simp only [field, stackSize]
  bv_omega

/-- `StackAllocate` with the places of the registers for the cells of `machineState`. -/
theorem stackAllocate_eq : stackAllocate linked object stack func arg memory =
    Function.update (Function.update (Function.update (Function.update (Function.update
      (Function.update (Function.update (Function.update memory
        (field object (offset .rsp)) (field stack (8 * 4091)))
        (field stack (8 * 4091)) linked.threadRoot) stack stackFencepost)
        (field object pc) linked.threadRoot) (field object (offset .rax)) linked.interruptEnable)
        (field object (offset .rsi)) func) (field object (offset .rbx)) arg)
        (field object (offset .rdi)) linked.threadFinish := by
  rw [stackAllocate, stackTop_eq]
  rfl

/-- `StackAllocate` writes to the thread object and to the stack only. -/
theorem stackAllocate_of_ne (outside : ¬ InObject object address)
    (outside' : ¬ allocated stack address) :
    stackAllocate linked object stack func arg memory address = memory address := by
  rw [InObject, not_or, not_exists] at outside
  have top : address ≠ field stack (8 * 4091) := fun same => outside' ⟨4091, by decide, same⟩
  have bottom : address ≠ stack := fun same => outside' ⟨0, by decide, same.trans (field_zero _).symm⟩
  simp only [stackAllocate_eq, Function.update_apply, outside, top, bottom, if_false]

/-- What `StackAllocate` leaves in the thread object, and on top of the stack. -/
theorem stackAllocate_object
    (apart : ∀ address, allocated stack address → ¬ InObject object address) :
    Context.Starts linked ⟨func, arg⟩
      (Home.resumed ⟨object, allocated stack⟩ (stackAllocate linked object stack func arg memory)) ∧
    stackAllocate linked object stack func arg memory (field object pc) = linked.threadRoot ∧
    stackAllocate linked object stack func arg memory (field object (offset .rsp)) =
      field stack (8 * 4091) ∧
    stackAllocate linked object stack func arg memory (field stack (8 * 4091)) =
      linked.threadRoot := by
  have top := apart (field stack (8 * 4091)) ⟨4091, by decide, rfl⟩
  have bottom := apart stack ⟨0, by decide, (field_zero _).symm⟩
  rw [InObject, not_or, not_exists] at top bottom
  have regs : ∀ first second : Reg,
      field object (offset first) = field object (offset second) ↔ first = second := by
    intro first second
    rw [field_inj (offset_small first) (offset_small second)]
    exact ⟨offset_inj first second, fun same => same ▸ rfl⟩
  have pcs : ∀ reg : Reg, field object pc ≠ field object (offset reg) :=
    fun reg => (field_ne_pc object reg).symm
  have ends : field stack (8 * 4091) ≠ stack := by
    intro same
    have equal := (field_inj (by decide) (by decide)).mp (same.trans (field_zero _).symm)
    cases equal
  refine ⟨⟨?_, ?_, ?_, ?_, ?_⟩, ?_, ?_, ?_⟩
  all_goals
    simp [Home.resumed, stackAllocate_eq, Function.update_apply, regs, pcs, top, field_ne_pc, ends,
      fun reg => Ne.symm (bottom.2 reg), fun reg => Ne.symm (top.2 reg)]

end Allocation

end Nachos.Threads.Switch
