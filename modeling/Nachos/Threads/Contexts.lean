import Nachos.Threads.SwitchLaws

/-! Threads that share a processor by `SWITCH` each go on as if they had one of their own. -/

namespace Nachos.Threads.Switch

open X86

variable {linked : Linked} {system next : System} {home other : Home} {memory after : Word → Word}
  {thread : Nat}

/-- The memory of a thread: its object and its stack. -/
def Home.owns (home : Home) (address : Word) : Prop := home.object address ∨ home.stack address

/-- A thread that does not run has the address at which it goes on twice. -/
structure Home.Asleep (home : Home) (memory : Word → Word) : Prop where
  aligned : Aligned (memory (field home.thread (offset .rsp)))
  stacked : home.stack (memory (field home.thread (offset .rsp)))
  back : memory (memory (field home.thread (offset .rsp))) = memory (field home.thread pc)

/-- Each thread has memory of its own, and who does not run sleeps in `SWITCH`. -/
structure System.Sound (system : System) : Prop where
  running : ∃ home, system.homes system.currentThread = some home
  aligned : ∀ thread home, system.homes thread = some home → Aligned home.thread
  inside : ∀ thread home, system.homes thread = some home →
    ∀ address, home.stack address → ¬ home.object address
  apart : ∀ thread other home home', system.homes thread = some home →
    system.homes other = some home' → thread ≠ other →
      ∀ address, home.owns address → ¬ home'.owns address
  asleep : ∀ thread home, system.homes thread = some home → thread ≠ system.currentThread →
    home.Asleep system.cpu.memory

/-- Where the saved registers are is in the object. -/
theorem Home.owns_field (home : Home) (reg : Reg) : home.owns (field home.thread (offset reg)) :=
  .inl (.inr ⟨reg, rfl⟩)

/-- Where the saved program counter is is in the object. -/
theorem Home.owns_pc (home : Home) : home.owns (field home.thread pc) := .inl (.inl rfl)

/-- The words of a stack depend on the stack only. -/
theorem Home.words_congr (same : ∀ address, home.stack address → after address = memory address) :
    home.words after = home.words memory := by
  funext address
  rw [Home.words, Home.words]
  split
  · rw [same address ‹_›]
  · rfl

/-- Where a thread goes on depends on its own memory only. -/
theorem Home.resumed_congr (same : ∀ address, home.owns address → after address = memory address) :
    home.resumed after = home.resumed memory := by
  simp only [Home.resumed, same _ (home.owns_field _), same _ home.owns_pc,
    Home.words_congr fun address stacked => same address (.inr stacked)]

/-- It stays asleep while its own memory stays what it is. -/
theorem Home.Asleep.congr (asleep : home.Asleep memory)
    (same : ∀ address, home.owns address → after address = memory address) : home.Asleep after := by
  have stack := same _ (home.owns_field .rsp)
  refine ⟨stack ▸ asleep.aligned, stack ▸ asleep.stacked, ?_⟩
  rw [stack, same _ (.inr asleep.stacked), same _ home.owns_pc, asleep.back]

namespace System

/-- The running thread has its context on the processor. -/
theorem contexts_current (found : system.homes system.currentThread = some home) :
    system.contexts system.currentThread =
      some ⟨system.cpu.regs, system.rip, home.words system.cpu.memory⟩ := by
  rw [contexts, found, Option.map_some, if_pos rfl]

/-- The other threads have theirs in memory. -/
theorem contexts_other (found : system.homes thread = some home)
    (waits : thread ≠ system.currentThread) :
    system.contexts thread = some (home.resumed system.cpu.memory) := by
  rw [contexts, found, Option.map_some, if_neg waits]

/-- Without a thread there is no context. -/
theorem contexts_none (missing : system.homes thread = none) : system.contexts thread = none := by
  rw [contexts, missing, Option.map_none]

/-- A step leaves the context of a thread alone that sleeps before and after it. -/
theorem contexts_frame (same : next.homes thread = system.homes thread)
    (waits : thread ≠ system.currentThread) (waits' : thread ≠ next.currentThread)
    (kept : ∀ home, system.homes thread = some home → ∀ address, home.owns address →
      next.cpu.memory address = system.cpu.memory address) :
    next.contexts thread = system.contexts thread := by
  cases found : system.homes thread with
  | none => rw [contexts_none found, contexts_none (same.trans found)]
  | some home =>
    rw [contexts_other found waits, contexts_other (same.trans found) waits',
      Home.resumed_congr (kept home found)]

/-- What a proper action does to the contexts is what the threads see of it. -/
def Seen (linked : Linked) (system : System) (action : Action) (next : System) : Prop :=
  ∃ event, observe system action next = [event] ∧
    Processors.Allows (Context.Starts linked) system.contexts event ∧
    next.contexts = Processors.apply Context.back system.contexts event ∧ next.Sound

/-- A thread does something on its own. -/
theorem Sound.compute (sound : system.Sound) {cpu : Core} {rip : Word}
    (proper : system.Proper (.compute cpu rip)) :
    Seen linked system (.compute cpu rip) { system with cpu, rip } := by
  obtain ⟨home, found⟩ := sound.running
  have before := contexts_current found
  have later : contexts { system with cpu, rip } system.currentThread =
      some ⟨cpu.regs, rip, home.words cpu.memory⟩ :=
    contexts_current found
  refine ⟨.went system.currentThread ⟨system.cpu.regs, system.rip, home.words system.cpu.memory⟩
      ⟨cpu.regs, rip, home.words cpu.memory⟩, by simp only [observe, before, later], before, ?_,
    sound.running, sound.aligned, sound.inside, sound.apart, fun thread other found' waits => ?_⟩
  · funext thread
    by_cases same : thread = system.currentThread
    · rw [same, later, Processors.apply, Function.update_self]
    · rw [Processors.apply, Function.update_of_ne same]
      exact contexts_frame rfl same same fun other found' => proper thread other found' same
  · exact (sound.asleep thread other found' waits).congr (proper thread other found' waits)

/-- A thread is deleted. -/
theorem Sound.delete (sound : system.Sound) (proper : system.Proper (.delete thread)) :
    Seen linked system (.delete thread)
      { system with homes := Function.update system.homes thread none } := by
  obtain ⟨found, waits⟩ := proper
  have left : ∀ other home, Function.update system.homes thread none other = some home →
      system.homes other = some home := by
    intro other home found'
    by_cases same : other = thread
    · rw [same, Function.update_self] at found'
      cases found'
    · rwa [Function.update_of_ne same] at found'
  refine ⟨.ended thread, rfl, ?_, ?_, ?_, ?_, ?_, ?_, ?_⟩
  · obtain ⟨home, found⟩ := Option.ne_none_iff_exists'.mp found
    rw [Processors.Allows, contexts_other found waits]
    exact Option.some_ne_none _
  · funext other
    by_cases same : other = thread
    · rw [same, Processors.apply, Function.update_self]
      exact contexts_none (Function.update_self ..)
    · rw [Processors.apply, Function.update_of_ne same]
      simp only [contexts, Function.update_of_ne same]
  · obtain ⟨home, found⟩ := sound.running
    exact ⟨home, (Function.update_of_ne waits.symm _ _).trans found⟩
  · exact fun other home found' => sound.aligned other home (left other home found')
  · exact fun other home found' => sound.inside other home (left other home found')
  · exact fun first second home home' found' found'' =>
      sound.apart first second home home' (left _ _ found') (left _ _ found'')
  · exact fun other home found' => sound.asleep other home (left other home found')

/-- A thread is forked. -/
theorem Sound.fork (sound : system.Sound) {object stack : Word} {task : Task}
    (proper : system.Proper (.fork thread object stack task)) :
    Seen linked system (.fork thread object stack task) { system with
      cpu := { system.cpu with
        memory := stackAllocate linked object stack task.func task.arg system.cpu.memory }
      homes := Function.update system.homes thread (some ⟨object, allocated stack⟩) } := by
  obtain ⟨missing, aligned, fits⟩ := proper
  obtain ⟨starts, counter, top, back⟩ := @stackAllocate_object system.cpu.memory
    linked object stack task.func task.arg fits.inside
  generalize shape : stackAllocate linked object stack task.func task.arg system.cpu.memory =
    memory at starts counter top back ⊢
  generalize newHome : (⟨object, allocated stack⟩ : Home) = home at fits starts ⊢
  have thread_ : home.thread = object := by rw [← newHome]
  obtain ⟨own, running⟩ := sound.running
  have waits : thread ≠ system.currentThread := by
    rintro rfl
    rw [missing] at running
    cases running
  -- The others own nothing of the new memory, and find theirs as it was.
  have foreign : ∀ other home', system.homes other = some home' → ∀ address, home'.owns address →
      ¬ home.owns address := by
    rintro other home' found address mine (inside | inside)
    · exact mine.elim (fits.objectWords other home' found address inside).1
        (fits.objectWords other home' found address inside).2
    · exact mine.elim (fits.stackWords other home' found address inside).1
        (fits.stackWords other home' found address inside).2
  have kept : ∀ other home', system.homes other = some home' → ∀ address, home'.owns address →
      memory address = system.cpu.memory address := by
    intro other home' found address mine
    have outside := foreign other home' found address mine
    rw [← newHome] at outside
    rw [← shape]
    exact stackAllocate_of_ne (fun inside => outside (.inl inside)) fun inside => outside (.inr inside)
  have asleep : home.Asleep memory := by
    have slot : memory (field home.thread (offset .rsp)) = field stack (8 * 4091) := thread_ ▸ top
    refine ⟨?_, ?_, ?_⟩
    · rw [slot]
      exact aligned_field aligned (by decide)
    · rw [slot, ← newHome]
      change allocated stack (field stack (8 * 4091))
      exact ⟨4091, by decide, rfl⟩
    · rw [slot, back, thread_, counter]
  -- A thread after the fork is the new one, or was there before.
  have homes : ∀ other home', Function.update system.homes thread (some home) other = some home' →
      other = thread ∧ home' = home ∨ other ≠ thread ∧ system.homes other = some home' := by
    intro other home' found
    by_cases same : other = thread
    · rw [same, Function.update_self, Option.some.injEq] at found
      exact .inl ⟨same, found.symm⟩
    · rw [Function.update_of_ne same] at found
      exact .inr ⟨same, found⟩
  have begun : contexts { system with
      cpu := { system.cpu with memory }
      homes := Function.update system.homes thread (some home) } thread =
        some (home.resumed memory) :=
    contexts_other (Function.update_self ..) waits
  refine ⟨.began thread task (home.resumed memory), ?_, ⟨contexts_none missing, starts⟩, ?_,
    ⟨own, (Function.update_of_ne waits.symm _ _).trans running⟩, ?_, ?_, ?_, ?_⟩
  · simp only [observe, begun]
    rfl
  · funext other
    by_cases same : other = thread
    · rw [same, begun, Processors.apply, Function.update_self]
    · rw [Processors.apply, Function.update_of_ne same]
      by_cases runs : other = system.currentThread
      · rw [runs, contexts_current running]
        rw [← Home.words_congr fun address stacked => kept _ own running address (.inr stacked)]
        exact contexts_current ((Function.update_of_ne waits.symm _ _).trans running)
      · exact contexts_frame (Function.update_of_ne same _ _) runs runs fun home' found =>
          kept other home' found
  · intro other home' found
    rcases homes other home' found with ⟨-, rfl⟩ | ⟨-, known⟩
    · exact fits.aligned
    · exact sound.aligned other home' known
  · intro other home' found
    rcases homes other home' found with ⟨-, rfl⟩ | ⟨-, known⟩
    · exact fits.inside
    · exact sound.inside other home' known
  · intro first second home' home'' found found' differ address mine
    rcases homes first home' found with ⟨rfl, rfl⟩ | ⟨-, known⟩
    · rcases homes second home'' found' with ⟨rfl, -⟩ | ⟨-, known⟩
      · exact absurd rfl differ
      · exact fun theirs => foreign second home'' known address theirs mine
    · rcases homes second home'' found' with ⟨-, rfl⟩ | ⟨-, known'⟩
      · exact foreign first home' known address mine
      · exact sound.apart first second home' home'' known known' differ address mine
  · intro other home' found runs
    rcases homes other home' found with ⟨-, rfl⟩ | ⟨-, known⟩
    · exact asleep
    · exact (sound.asleep other home' known runs).congr (kept other home' known)

/-- `SWITCH` goes on with another thread. -/
theorem Sound.switch (sound : system.Sound) {nextThread : Nat}
    (proper : system.Proper (.switch nextThread)) :
    ∃ next, System.step linked system (.switch nextThread) = .ok next ∧
      Seen linked system (.switch nextThread) next := by
  obtain ⟨old, new, running, found, differ, saves, restores, aligned, stacked⟩ := proper
  have asleep := sound.asleep nextThread new found differ
  have foreign := sound.apart nextThread system.currentThread new old found running differ
  -- The object of the running thread is apart from its stack, and from all of the other thread.
  have kept : ∀ address, ¬ old.object address →
      saved system.cpu address = system.cpu.memory address := by
    intro address outside
    exact saved_of_ne (by rw [saves]; exact outside)
  have theirs : ∀ address, new.owns address → saved system.cpu address = system.cpu.memory address :=
    fun address mine => kept address fun inside => foreign address mine (.inl inside)
  have switched : doSwitch system.cpu = some (system.cpu.memory (field new.thread pc),
      ⟨resumedRegs system.cpu.memory new.thread, saved system.cpu⟩) := by
    have done := @doSwitch_eq system.cpu (by rw [saves]; exact sound.aligned _ _ running)
      (by rw [restores]; exact sound.aligned _ _ found) aligned
      (by rw [restores]; exact asleep.aligned)
      (by rw [saves]; exact sound.inside _ _ running _ stacked)
      (by rw [restores]; exact sound.inside _ _ found _ asleep.stacked)
      (by
        rw [saves, restores]
        exact fun address mine inside => foreign address (.inl mine) (.inl inside))
    rw [done, restores]
    -- The return address is on the stack already.
    have there : saved system.cpu (system.cpu.memory (field new.thread (offset .rsp))) =
        system.cpu.memory (field new.thread pc) := by
      rw [theirs _ (.inr asleep.stacked), asleep.back]
    rw [← there, Function.update_eq_self]
  -- The thread that was running sleeps with its return address on its stack.
  have sleeps : old.Asleep (saved system.cpu) := by
    have stack : saved system.cpu (field old.thread (offset .rsp)) = system.cpu.regs .rsp :=
      saves ▸ saved_field system.cpu .rsp
    refine ⟨stack ▸ aligned, stack ▸ stacked, ?_⟩
    rw [stack, kept _ (sound.inside _ _ running _ stacked)]
    exact (saves ▸ saved_pc system.cpu).symm
  have before := contexts_current running
  refine ⟨{ system with
      cpu := ⟨resumedRegs system.cpu.memory new.thread, saved system.cpu⟩
      rip := system.cpu.memory (field new.thread pc)
      currentThread := nextThread }, ?_,
    .yielded system.currentThread ⟨system.cpu.regs, system.rip, old.words system.cpu.memory⟩, ?_,
    before, ?_, ⟨new, found⟩, sound.aligned, sound.inside, sound.apart, ?_⟩
  · simp only [step, switched]
  · simp only [observe, before]
    rfl
  · funext thread
    by_cases same : thread = system.currentThread
    · -- The thread that was running finds everything where it was saved.
      subst same
      rw [Processors.apply, Function.update_self]
      rw [contexts, running, Option.map_some, if_neg differ.symm]
      have regs : ∀ reg, saved system.cpu (field old.thread (offset reg)) = system.cpu.regs reg :=
        fun reg => saves ▸ saved_field system.cpu reg
      have counter : saved system.cpu (field old.thread pc) =
          system.cpu.memory (system.cpu.regs .rsp) := saves ▸ saved_pc system.cpu
      have words := Home.words_congr fun address inside =>
        kept address (sound.inside _ _ running address inside)
      have there : old.words system.cpu.memory (system.cpu.regs .rsp) =
          some (system.cpu.memory (system.cpu.regs .rsp)) := by rw [Home.words, if_pos stacked]
      simp only [Home.resumed, Context.back, regs, counter, words, there, Option.getD_some]
    · rw [Processors.apply, Function.update_of_ne same]
      by_cases goes : thread = nextThread
      · -- The thread that goes on has been found in its object.
        subst goes
        rw [contexts_other found differ]
        refine (contexts_current found).trans ?_
        rw [Home.words_congr fun address inside => theirs address (.inr inside)]
        rfl
      · refine contexts_frame rfl same goes fun home known address mine => ?_
        exact kept address fun inside => sound.apart thread system.currentThread home old known
          running same address mine (.inl inside)
  · intro thread home known waits
    by_cases same : thread = system.currentThread
    · subst same
      obtain rfl : home = old := Option.some.inj (known.symm.trans running)
      exact sleeps
    · refine (sound.asleep thread home known same).congr fun address mine => ?_
      exact kept address fun inside => sound.apart thread system.currentThread home old known
        running same address mine (.inl inside)

/-- Every proper action can be taken, and the threads see what they should of it. -/
theorem Sound.seen (sound : system.Sound) {action : Action} (proper : system.Proper action) :
    ∃ next, System.step linked system action = .ok next ∧ Seen linked system action next := by
  cases action with
  | compute cpu rip => exact ⟨_, rfl, sound.compute proper⟩
  | fork thread object stack task => exact ⟨_, rfl, sound.fork proper⟩
  | switch nextThread => exact sound.switch proper
  | delete thread => exact ⟨_, rfl, sound.delete proper⟩

/-- What a proper action does, the threads allow. -/
theorem Sound.stepped (sound : system.Sound) {action : Action} (proper : system.Proper action)
    (stepped : System.step linked system action = .ok next) :
    Runs.Accepts (Processors.apply Context.back) (Processors.Allows (Context.Starts linked))
        system.contexts (observe system action next) ∧
      next.Sound ∧ next.contexts =
        (observe system action next).foldl (Processors.apply Context.back) system.contexts := by
  obtain ⟨next', stepped', event, seen, allowed, later, sound'⟩ := @Sound.seen linked system sound action proper
  rw [stepped', Except.ok.injEq] at stepped
  subst stepped
  rw [seen]
  exact ⟨⟨allowed, trivial⟩, sound', later⟩

end System

/-- Words at small offsets behind a small base are in their order. -/
theorem toNat_field {base : Word} {bytes : Nat} (small : base.toNat + bytes < 2 ^ 64) :
    (field base bytes).toNat = base.toNat + bytes := by
  rw [field, BitVec.toNat_add, BitVec.toNat_ofNat]
  omega

section Root

variable {cpu : Core} {top address : Word} {calls : List (Word × Word)}

/-- What a routine that returns leaves alone: some registers, and the stack of its caller. -/
structure Abi (top : Word) (cpu after : Core) : Prop where
  regs : ∀ reg ∈ [Reg.rsp, .rbx, .rbp, .r12, .r13, .r14, .r15], after.regs reg = cpu.regs reg
  stack : ∀ address, (cpu.regs .rsp).toNat ≤ address.toNat → address.toNat < top.toNat →
    after.memory address = cpu.memory address

/-- Words are multiples of eight apart. -/
theorem aligned_sub (aligned : Aligned address) : Aligned (address - 8) := by
  unfold Aligned at *
  bv_omega

/-- `ThreadRoot` first pushes the addresses of the two routines to come. -/
theorem run_pushes (aligned : Aligned (cpu.regs .rsp)) :
    ∃ after, cpu.run [.push .rbp, .move .rsp .rbp, .push .rdi, .push .rsi] = some after ∧
      (∀ reg, reg ≠ .rsp → reg ≠ .rbp → after.regs reg = cpu.regs reg) ∧
      after.regs .rsp = cpu.regs .rsp - 24 ∧
      after.memory (cpu.regs .rsp - 24) = cpu.regs .rsi ∧
      after.memory (cpu.regs .rsp - 16) = cpu.regs .rdi := by
  generalize there : cpu.regs .rsp = rsp at aligned ⊢
  have first := aligned_sub aligned
  have second : Aligned (rsp - 16) := by
    have middle : rsp - 16 = rsp - 8 - 8 := by bv_omega
    exact middle ▸ aligned_sub first
  have third : Aligned (rsp - 24) := by
    have bottom : rsp - 24 = rsp - 16 - 8 := by bv_omega
    exact bottom ▸ aligned_sub second
  have ran : cpu.run [.push .rbp, .move .rsp .rbp, .push .rdi, .push .rsi] = some
      ⟨Function.update (Function.update (Function.update (Function.update cpu.regs .rsp (rsp - 8))
          .rbp (rsp - 8)) .rsp (rsp - 16)) .rsp (rsp - 24),
        Function.update (Function.update (Function.update cpu.memory (rsp - 8) (cpu.regs .rbp))
          (rsp - 16) (cpu.regs .rdi)) (rsp - 24) (cpu.regs .rsi)⟩ := by
    calc cpu.run [.push .rbp, .move .rsp .rbp, .push .rdi, .push .rsi]
      _ = Core.run ⟨Function.update cpu.regs .rsp (rsp - 8),
            Function.update cpu.memory (rsp - 8) (cpu.regs .rbp)⟩
          [.move .rsp .rbp, .push .rdi, .push .rsi] := run_push (by rw [there]) first
      _ = Core.run ⟨Function.update (Function.update cpu.regs .rsp (rsp - 8)) .rbp (rsp - 8),
            Function.update cpu.memory (rsp - 8) (cpu.regs .rbp)⟩ [.push .rdi, .push .rsi] := rfl
      _ = Core.run ⟨Function.update (Function.update (Function.update cpu.regs .rsp (rsp - 8)) .rbp
              (rsp - 8)) .rsp (rsp - 16),
            Function.update (Function.update cpu.memory (rsp - 8) (cpu.regs .rbp)) (rsp - 16)
              (cpu.regs .rdi)⟩ [.push .rsi] :=
        run_push (show rsp - 8 - 8 = rsp - 16 by bv_omega) second
      _ = _ := run_push (show rsp - 16 - 8 = rsp - 24 by bv_omega) third
  refine ⟨_, ran, fun reg stack base => ?_, ?_, ?_, ?_⟩
  · simp only [Function.update_of_ne stack, Function.update_of_ne base]
  · simp only [Function.update_self]
  · simp only [Function.update_self]
  · have apart : rsp - 16 ≠ rsp - 24 := by bv_omega
    simp only [Function.update_of_ne apart, Function.update_self]

/-- `ThreadRoot` calls the routines that it finds in its registers, one after the other. -/
theorem makes_threadRoot (aligned : Aligned (cpu.regs .rsp))
    (room : 24 ≤ (cpu.regs .rsp).toNat) (stacked : (cpu.regs .rsp).toNat ≤ top.toNat) :
    Makes (Abi top) [(· = (cpu.regs .rax, cpu.regs .rdi)), (· = (cpu.regs .rsi, cpu.regs .rbx)),
      (·.1 = cpu.regs .rdi)] threadRoot cpu := by
  obtain ⟨pushed, ran, regs, rsp, func, finish⟩ := run_pushes aligned
  have low : (cpu.regs .rsp - 24).toNat = (cpu.regs .rsp).toNat - 24 := by bv_omega
  have high : (cpu.regs .rsp - 16).toNat = (cpu.regs .rsp).toNat - 16 := by bv_omega
  have words : Aligned (cpu.regs .rsp - 24) := by unfold Aligned at *; omega
  have words' : Aligned (cpu.regs .rsp - 16) := by unfold Aligned at *; omega
  -- The startup routine is called, and returns.
  refine @Makes.call _ _ _ [.push .rbp, .move .rsp .rbp, .push .rdi, .push .rsi] _ _ _ _ ran ?_ ?_
  · rw [regs .rax (by decide) (by decide), regs .rdi (by decide) (by decide)]
  intro started abi
  have stack : started.regs .rsp = cpu.regs .rsp - 24 := (abi.regs .rsp (by decide)).trans rsp
  have arg : started.regs .rbx = cpu.regs .rbx :=
    (abi.regs .rbx (by decide)).trans (regs .rbx (by decide) (by decide))
  have func' : started.memory (cpu.regs .rsp - 24) = cpu.regs .rsi := by
    rw [abi.stack _ (Nat.le_of_eq (congrArg BitVec.toNat rsp)) (by omega), func]
  have finish' : started.memory (cpu.regs .rsp - 16) = cpu.regs .rdi := by
    rw [abi.stack _ (by rw [rsp]; omega) (by omega), finish]
  -- The function of the thread is called with its argument, and returns.
  have popped : started.run [.move .rbx .rdi, .pop .rsi] = some
      ⟨Function.update (Function.update (Function.update started.regs .rdi (started.regs .rbx))
        .rsp (cpu.regs .rsp - 24 + 8)) .rsi (cpu.regs .rsi), started.memory⟩ :=
    @run_pop ⟨Function.update started.regs .rdi (started.regs .rbx), started.memory⟩ _ _ _ []
      stack words func'
  have above : cpu.regs .rsp - 24 + 8 = cpu.regs .rsp - 16 := by bv_omega
  rw [arg, above] at popped
  generalize shape : (⟨Function.update (Function.update (Function.update started.regs .rdi _) .rsp _)
    .rsi _, started.memory⟩ : Core) = ready at popped
  have readyArg : ready.regs .rdi = cpu.regs .rbx := by rw [← shape]; rfl
  have readyFunc : ready.regs .rsi = cpu.regs .rsi := by rw [← shape]; rfl
  have readyStack : ready.regs .rsp = cpu.regs .rsp - 16 := by rw [← shape]; rfl
  have readyFinish : ready.memory (cpu.regs .rsp - 16) = cpu.regs .rdi := by
    rw [← shape]
    exact finish'
  refine @Makes.call _ _ _ [.move .rbx .rdi, .pop .rsi] _ _ _ _ popped ?_ ?_
  · rw [readyFunc, readyArg]
  intro back abi
  -- `Finish` is called, and there are no calls behind it.
  have popped : back.run [.pop .rsi] = some ⟨Function.update (Function.update back.regs .rsp
      (cpu.regs .rsp - 16 + 8)) .rsi (cpu.regs .rdi), back.memory⟩ := by
    refine @run_pop back _ _ _ [] ?_ words' ?_
    · exact (abi.regs .rsp (by decide)).trans readyStack
    · rw [abi.stack _ (Nat.le_of_eq (congrArg BitVec.toNat readyStack)) (by omega), readyFinish]
  refine @Makes.call _ _ _ [.pop .rsi] _ _ _ _ popped ?_ ?_
  · simp only [Function.update_self]
  · exact fun finished _ => .nil (by simp)

/-- Three calls of which only the argument of the last is open are told as a list. -/
theorem prefix_of_meets {first second : Word × Word} {last : Word}
    {made left : List (Word × Word → Prop)}
    (shape : [(· = first), (· = second), (·.1 = last)] = made ++ left)
    (meets : List.Forall₂ (fun meets call => meets call) made calls) :
    ∃ argument, calls <+: [first, second, (last, argument)] := by
  -- The calls that are told are the first ones, as many as there have been.
  have all : List.Forall₂ (fun meets call => meets call)
      ([(· = first), (· = second), (·.1 = last)].take calls.length) calls := by
    rw [shape, ← meets.length_eq, List.take_left]
    exact meets
  match calls, all with
  | [], _ => exact ⟨0, List.nil_prefix⟩
  | [_], .cons rfl _ => exact ⟨0, _, rfl⟩
  | [_, _], .cons rfl (.cons rfl _) => exact ⟨0, _, rfl⟩
  | [_, _, (_, argument)], .cons rfl (.cons rfl (.cons rfl _)) => exact ⟨argument, List.prefix_rfl⟩

/--
A new thread enables interrupts, calls its function with its argument, and finishes, in this order
and nothing else.

The routines are those that `StackAllocate` was given, whatever the memory is by the time the thread
runs; `SWITCH` has loaded the registers. The first call is reached, and each of the others as soon
as the one before it has returned.
-/
theorem threadRoot_calls {linked : Linked} {object stack func arg : Word}
    {memory later : Word → Word} (aligned : Aligned stack)
    (fits : stack.toNat + 8 * stackSize < 2 ^ 64)
    (apart : ∀ address, allocated stack address → ¬ InObject object address) :
    Makes (Abi (field stack (8 * stackSize)))
      [(· = (linked.interruptEnable, linked.threadFinish)), (· = (func, arg)),
        (·.1 = linked.threadFinish)] threadRoot
      ⟨resumedRegs (stackAllocate linked object stack func arg memory) object, later⟩ ∧
    ∀ calls, Executes (Abi (field stack (8 * stackSize))) threadRoot
      ⟨resumedRegs (stackAllocate linked object stack func arg memory) object, later⟩ calls →
        ∃ last, calls <+: [(linked.interruptEnable, linked.threadFinish), (func, arg),
          (linked.threadFinish, last)] := by
  obtain ⟨⟨-, startup, initialArg, initial, finish⟩, -, top, -⟩ := @stackAllocate_object memory
    linked object stack func arg apart
  generalize stackAllocate linked object stack func arg memory = forked at *
  generalize shape : (⟨resumedRegs forked object, later⟩ : Core) = cpu
  have regs : cpu.regs = resumedRegs forked object := by rw [← shape]
  -- `SWITCH` has returned by the word that `StackAllocate` put on the stack.
  have rsp : cpu.regs .rsp = field stack (8 * 4092) := by
    have below : field stack (8 * 4091) + 8 = field stack (8 * 4092) := by
      simp only [field]
      bv_omega
    rw [regs, ← below, ← top]
    exact Function.update_self ..
  have place : (cpu.regs .rsp).toNat = stack.toNat + 8 * 4092 := by
    rw [stackSize] at fits
    rw [rsp, toNat_field (by omega)]
  have ends : (field stack (8 * stackSize)).toNat = stack.toNat + 8 * stackSize := toNat_field fits
  have makes := @makes_threadRoot cpu (field stack (8 * stackSize))
    (by rw [rsp]; exact aligned_field aligned (by decide)) (by omega)
    (by rw [place, ends, stackSize]; omega)
  change resumedRegs forked object .rax = _ at startup
  change resumedRegs forked object .rbx = arg at initialArg
  change resumedRegs forked object .rsi = func at initial
  change resumedRegs forked object .rdi = _ at finish
  rw [regs, startup, initialArg, initial, finish] at makes
  refine ⟨makes, fun calls executes => ?_⟩
  obtain ⟨made, left, all, meets⟩ := makes.executes executes
  exact prefix_of_meets all meets

end Root

namespace System

/-- Addresses of the three routines. -/
def linkedAt : Linked := ⟨0x400, 0x500, 0x600⟩

/-- The main thread is about to call `SWITCH` of its own object and the one of a new thread. -/
def firstSystem : System where
  cpu.regs reg :=
    match reg with
    | .rdi => 0x1000
    | .rsi => 0x2000
    | .rsp => 0x3000
    | _ => 1
  cpu.memory _ := 0
  rip := 0x700
  currentThread := 0
  homes := Function.update (fun _ => none) 0 (some ⟨0x1000, fun address => address = 0x3000⟩)

/-- An object with its registers is short. -/
theorem toNat_object {object address : Word} (small : object.toNat + 128 < 2 ^ 64)
    (inside : InObject object address) :
    object.toNat ≤ address.toNat ∧ address.toNat ≤ object.toNat + 128 := by
  rcases inside with rfl | ⟨reg, rfl⟩
  · rw [toNat_field (by rw [pc]; omega), pc]
    omega
  · have bound : offset reg ≤ 128 := by cases reg <;> decide
    rw [toNat_field (by omega)]
    omega

/-- A stack has the size that it was asked for. -/
theorem toNat_allocated {stack address : Word} (small : stack.toNat + 8 * stackSize < 2 ^ 64)
    (inside : allocated stack address) :
    stack.toNat ≤ address.toNat ∧ address.toNat < stack.toNat + 8 * stackSize := by
  obtain ⟨index, bound, rfl⟩ := inside
  rw [toNat_field (by omega)]
  omega

/-- The new thread fits in. -/
theorem proper_fork : firstSystem.Proper (.fork 1 0x2000 0x8000 ⟨0x800, 9⟩) := by
  have only : ∀ thread other, firstSystem.homes thread = some other →
      other = ⟨0x1000, fun address => address = 0x3000⟩ := by
    intro thread other found
    change Function.update (fun _ => none) 0 _ thread = some other at found
    by_cases same : thread = 0
    · rw [same, Function.update_self, Option.some.injEq] at found
      exact found.symm
    · rw [Function.update_of_ne same] at found
      cases found
  have objects : ∀ address : Word, InObject 0x2000 address →
      0x2000 ≤ address.toNat ∧ address.toNat ≤ 0x2080 := fun _ => toNat_object (by decide)
  have first : ∀ address : Word, InObject 0x1000 address →
      0x1000 ≤ address.toNat ∧ address.toNat ≤ 0x1080 := fun _ => toNat_object (by decide)
  have stackWords : ∀ address : Word, allocated 0x8000 address →
      0x8000 ≤ address.toNat := fun _ inside => (toNat_allocated (by decide) inside).1
  refine ⟨rfl, by decide, by decide, fun address stacked inside => ?_, ?_, ?_⟩
  · have low := objects address inside
    have high := stackWords address stacked
    omega
  · rintro thread other found address inside
    obtain rfl := only thread other found
    have here := objects address inside
    refine ⟨fun there => ?_, fun there => ?_⟩
    · have low := first address there
      omega
    · have low : address.toNat = 0x3000 := congrArg BitVec.toNat there
      omega
  · rintro thread other found address stacked
    obtain rfl := only thread other found
    have here := stackWords address stacked
    refine ⟨fun there => ?_, fun there => ?_⟩
    · have low := first address there
      omega
    · have low : address.toNat = 0x3000 := congrArg BitVec.toNat there
      omega

end System

/-- A routine may leave everything alone. -/
theorem Abi.refl (top : Word) (cpu : Core) : Abi top cpu cpu :=
  ⟨fun _ _ => rfl, fun _ _ _ => rfl⟩

/-- The thread that has been forked gets to its end. -/
theorem threadRoot_calls_forked :
    Makes (Abi (field 0x8000 (8 * stackSize))) [(· = (0x500, 0x600)), (· = (0x800, 9)), (·.1 = 0x600)]
      threadRoot ⟨resumedRegs (stackAllocate System.linkedAt 0x2000 0x8000 0x800 9 fun _ => 0) 0x2000,
        fun _ => 0⟩ ∧
    ∃ last, Executes (Abi (field 0x8000 (8 * stackSize))) threadRoot
      ⟨resumedRegs (stackAllocate System.linkedAt 0x2000 0x8000 0x800 9 fun _ => 0) 0x2000,
        fun _ => 0⟩ [(0x500, 0x600), (0x800, 9), (0x600, last)] := by
  -- Four instructions, the first call, two instructions, the second call, one, and the last.
  have executes : Executes (Abi (field 0x8000 (8 * stackSize))) threadRoot
      ⟨resumedRegs (stackAllocate System.linkedAt 0x2000 0x8000 0x800 9 fun _ => 0) 0x2000,
        fun _ => 0⟩ [_, _, _] :=
    .step rfl (.step rfl (.step rfl (.step rfl (.returned (Abi.refl ..) (.step rfl (.step rfl
      (.returned (Abi.refl ..) (.step rfl .called))))))))
  obtain ⟨makes, seen⟩ := @threadRoot_calls System.linkedAt 0x2000 0x8000 0x800 9 (fun _ => 0)
    (fun _ => 0) (by decide) (by decide) System.proper_fork.2.2.inside
  obtain ⟨last, called⟩ := seen _ executes
  exact ⟨makes, last, called.eq_of_length rfl ▸ executes⟩

end Nachos.Threads.Switch
