import Nachos.Userprog.Sharing
import Nachos.Vm.Refinement

/-! `Fork` in both builds: the linear one shares memory, the virtual memory one does not. -/

namespace Nachos.Vm

open Userprog (Access Families ForkShares LoadsOwn)

/-- What an event shows to the other programs of the family. -/
def Event.access : Event → Access
  | .created thread file => .executed thread file.numPages
  | .stored thread addr bytes => .stored thread addr bytes
  | .loaded thread addr size value => .loaded thread addr size value

/-- What a step of the virtual memory build shows to an observer who knows about families. -/
def observeForks (before : Kernel) (action : Action) (after : Kernel) : List Access :=
  match action with
  | .fork thread _ =>
    match before.currentThread with
    | some father => [.forked father thread]
    | none => []
  | _ => (observe before action after).map Event.access

/-- Each living thread has a number of its own, smaller than the next one to be given out. -/
structure Numbered (alive : Thread → Prop) (families : Families) : Prop where
  serial : ∀ thread other, alive thread → alive other →
    families.serial thread = families.serial other → thread = other
  created : ∀ thread, alive thread → families.serial thread < families.created ∧
    families.family thread < families.created
  writers : ∀ family address serial, families.writer family address = some serial →
    serial < families.created

/-- What is known about the flat memory of every living thread. -/
structure Tracks (alive : Thread → Prop) (memories : Thread → Memory) (families : Families) :
    Prop where
  numbered : Numbered alive families
  stack : ∀ thread, alive thread → ∀ address byte, families.stack thread address = some byte →
    memories thread address = byte
  own : ∀ thread, alive thread → ∀ address byte,
    families.writer (families.family thread) address = some (families.serial thread) →
    families.shared (families.family thread) address = some byte → memories thread address = byte
  unwritten : ∀ family address, families.writer family address = none →
    families.shared family address = none

section Tracking

variable {alive alive' : Thread → Prop} {memories : Thread → Memory} {families families' : Families}
  {thread : Thread}

/-- A new thread gets the next number. -/
theorem Numbered.add {founder : Nat} (numbered : Numbered alive families)
    (fresh : ∀ other, alive' other → other = thread ∨ other ≠ thread ∧ alive other)
    (serial : families'.serial = Families.assign families.serial thread families.created)
    (family : families'.family = Families.assign families.family thread founder)
    (count : families'.created = families.created + 1) (known : founder ≤ families.created)
    (writers : ∀ family address serial, families'.writer family address = some serial →
      families.writer family address = some serial) : Numbered alive' families' := by
  refine ⟨?_, ?_, ?_⟩
  · intro first second here there same
    rw [serial, Families.assign_apply, Families.assign_apply] at same
    rcases fresh first here with rfl | ⟨differ, here⟩
    · rcases fresh second there with rfl | ⟨differ', there⟩
      · rfl
      · rw [if_pos rfl, if_neg differ'] at same
        exact absurd same.symm (Nat.ne_of_lt (numbered.created second there).1)
    · rcases fresh second there with rfl | ⟨differ', there⟩
      · rw [if_pos rfl, if_neg differ] at same
        exact absurd same (Nat.ne_of_lt (numbered.created first here).1)
      · rw [if_neg differ, if_neg differ'] at same
        exact numbered.serial first second here there same
  · intro other here
    rw [serial, family, count, Families.assign_apply, Families.assign_apply]
    rcases fresh other here with rfl | ⟨differ, there⟩
    · rw [if_pos rfl, if_pos rfl]
      omega
    · have earlier := numbered.created other there
      rw [if_neg differ, if_neg differ]
      omega
  · intro family address serial wrote
    rw [count]
    exact Nat.lt_succ_of_lt (numbered.writers family address serial (writers _ _ _ wrote))

/-- Fewer threads may be alive. -/
theorem Tracks.mono (tracks : Tracks alive memories families)
    (fewer : ∀ thread, alive' thread → alive thread) : Tracks alive' memories families :=
  ⟨⟨fun thread other here there =>
      tracks.numbered.serial thread other (fewer thread here) (fewer other there),
    fun thread here => tracks.numbered.created thread (fewer thread here),
    tracks.numbered.writers⟩, fun thread here => tracks.stack thread (fewer thread here),
    fun thread here => tracks.own thread (fewer thread here), tracks.unwritten⟩

/-- A new program knows nothing, and the others learn nothing from its creation. -/
theorem Tracks.executed (tracks : Tracks alive memories families)
    (fresh : ∀ other, alive' other → other = thread ∨ other ≠ thread ∧ alive other)
    (file : Executable) (numPages : Nat) :
    Tracks alive' ((Event.created thread file).apply memories)
      (families.apply (.executed thread numPages)) := by
  refine ⟨tracks.numbered.add fresh rfl rfl rfl (Nat.le_refl _) ?_, ?_, ?_, ?_⟩
  · intro family address serial wrote
    simp only [Families.apply, Families.assign_apply] at wrote
    split at wrote
    · simp at wrote
    · exact wrote
  · intro other here address byte known
    rcases fresh other here with rfl | ⟨differ, there⟩
    · simp [Families.apply, Families.assign_apply] at known
    · simp only [Families.apply, Families.assign_apply, if_neg differ] at known
      simp only [Event.apply, if_neg differ]
      exact tracks.stack other there address byte known
  · intro other here address byte wrote known
    rcases fresh other here with rfl | ⟨differ, there⟩
    · simp [Families.apply, Families.assign_apply] at known
    · have family : families.family other ≠ families.created :=
        Nat.ne_of_lt (tracks.numbered.created other there).2
      simp only [Families.apply, Families.assign_apply, if_neg differ, if_neg family] at wrote known
      simp only [Event.apply, if_neg differ]
      exact tracks.own other there address byte wrote known
  · intro family address none
    simp only [Families.apply, Families.assign_apply] at none ⊢
    split
    · rfl
    · rename_i differ
      rw [if_neg differ] at none
      exact tracks.unwritten family address none

/-- A child starts from the executable, so it knows only of stores that others made. -/
theorem Tracks.forked {father : Thread} (tracks : Tracks alive memories families)
    (fresh : ∀ other, alive' other → other = thread ∨ other ≠ thread ∧ alive other)
    (living : alive father) (file : Executable) :
    Tracks alive' ((Event.created thread file).apply memories)
      (families.apply (.forked father thread)) := by
  have known := tracks.numbered.created father living
  refine ⟨tracks.numbered.add fresh rfl rfl rfl (Nat.le_of_lt known.2) fun _ _ _ wrote => wrote,
    ?_, ?_, tracks.unwritten⟩
  · intro other here address byte known
    rcases fresh other here with rfl | ⟨differ, there⟩
    · simp [Families.apply, Families.assign_apply] at known
    · simp only [Families.apply, Families.assign_apply, if_neg differ] at known
      simp only [Event.apply, if_neg differ]
      exact tracks.stack other there address byte known
  · intro other here address byte wrote known
    rcases fresh other here with rfl | ⟨differ, there⟩
    · -- Nobody has written under the number that the child has just got.
      simp only [Families.apply, Families.assign_apply, if_true] at wrote
      exact absurd (tracks.numbered.writers _ _ _ wrote) (Nat.lt_irrefl _)
    · simp only [Families.apply, Families.assign_apply, if_neg differ] at wrote known
      simp only [Event.apply, if_neg differ]
      exact tracks.own other there address byte wrote known

/-- A store is known to its own thread, and the others know that they did not make it. -/
theorem Tracks.stored (tracks : Tracks alive memories families) (living : alive thread)
    (addr : BitVec 32) (bytes : List Byte) :
    Tracks alive ((Event.stored thread addr bytes).apply memories)
      (families.apply (.stored thread addr bytes)) := by
  -- Each address lies outside the range that is written, or at an offset inside it.
  have place : ∀ address, (address < addr.toNat ∨ addr.toNat + bytes.length ≤ address) ∨
      ∃ offset byte, bytes[offset]? = some byte ∧ address = addr.toNat + offset := by
    intro address
    by_cases inside : addr.toNat ≤ address ∧ address < addr.toNat + bytes.length
    · have small : address - addr.toNat < bytes.length := by omega
      exact .inr ⟨address - addr.toNat, _, List.getElem?_eq_getElem small, by omega⟩
    · exact .inl (by omega)
  refine ⟨⟨tracks.numbered.serial, tracks.numbered.created, ?_⟩, ?_, ?_, ?_⟩
  · intro family address serial wrote
    simp only [Families.apply, Families.assign_apply] at wrote
    split at wrote
    · rcases place address with outside | ⟨offset, byte, located, rfl⟩
      · rw [Blocks.setCells_outside _ (by simpa using outside)] at wrote
        exact tracks.numbered.writers _ _ _ wrote
      · rw [Blocks.setCells_inside _ _ (by rw [List.getElem?_map, located]; rfl)] at wrote
        cases wrote
        exact (tracks.numbered.created thread living).1
    · exact tracks.numbered.writers _ _ _ wrote
  · intro other here address byte known
    simp only [Families.apply, Families.assign_apply, Event.apply] at known ⊢
    split
    · rename_i same
      subst same
      rw [if_pos rfl] at known
      rcases place address with outside | ⟨offset, byte', located, rfl⟩
      · rw [Blocks.setCells_outside _ (by simpa using outside)] at known
        rw [Blocks.setCells_outside _ outside]
        exact tracks.stack other here address byte known
      · rw [Blocks.setCells_inside _ _ (by rw [List.getElem?_map, located]; rfl)] at known
        rw [Blocks.setCells_inside _ _ located]
        exact Option.some.inj known
    · rename_i differ
      rw [if_neg differ] at known
      exact tracks.stack other here address byte known
  · intro other here address byte wrote known
    simp only [Families.apply, Families.assign_apply, Event.apply] at wrote known ⊢
    by_cases kin : families.family other = families.family thread
    · rw [if_pos kin] at wrote known
      rcases place address with outside | ⟨offset, byte', located, rfl⟩
      · rw [Blocks.setCells_outside _ (by simpa using outside)] at wrote known
        rw [← kin] at wrote known
        have old := tracks.own other here address byte wrote known
        split
        · rw [Blocks.setCells_outside _ outside]
          exact old
        · exact old
      · rw [Blocks.setCells_inside _ _ (by rw [List.getElem?_map, located]; rfl)] at wrote known
        -- The last store was made under the number of the thread itself.
        have same := tracks.numbered.serial thread other living here (Option.some.inj wrote)
        rw [if_pos same.symm, Blocks.setCells_inside _ _ located]
        exact Option.some.inj known
    · rw [if_neg kin] at wrote known
      have differ : other ≠ thread := fun same => kin (by rw [same])
      rw [if_neg differ]
      exact tracks.own other here address byte wrote known
  · intro family address none
    simp only [Families.apply, Families.assign_apply] at none ⊢
    split
    · rename_i same
      rw [if_pos same] at none
      rcases place address with outside | ⟨offset, byte, located, rfl⟩
      · rw [Blocks.setCells_outside _ (by simpa using outside)] at none ⊢
        exact tracks.unwritten _ address none
      · rw [Blocks.setCells_inside _ _ (by rw [List.getElem?_map, located]; rfl)] at none
        simp at none
    · rename_i differ
      rw [if_neg differ] at none
      exact tracks.unwritten family address none

/-- A load that depends on stores of its own thread only keeps the promise. -/
theorem Tracks.loaded {addr value : BitVec 32} {size : Nat}
    (tracks : Tracks alive memories families) (living : alive thread)
    (agrees : (Event.loaded thread addr size value).Agrees memories)
    (mine : families.OwnWrites (.loaded thread addr size value)) :
    families.Keeps (.loaded thread addr size value) := by
  refine ⟨_, agrees, by simp, ?_⟩
  intro offset byte small known
  rw [Blocks.cells, List.getElem?_map, List.getElem?_range small, Option.map_some]
  congr 1
  simp only [Families.cell] at known
  split at known
  · rename_i low
    rcases mine offset small low with none | wrote
    · rw [tracks.unwritten _ _ none] at known
      simp at known
    · exact tracks.own thread living _ byte wrote known
  · exact tracks.stack thread living _ byte known

end Tracking

/-- Is this thread registered with an address space? -/
def Kernel.Alive (kernel : Kernel) (thread : Thread) : Prop :=
  thread ∈ kernel.invertedTable.getKeys

/-- After a creation the new thread is alive, besides those that were before. -/
theorem Created.alive {before after : Kernel} {thread : Thread} {count address : Nat}
    {file : Executable} {change : TranslationEntry → TranslationEntry}
    (created : Created before.invertedTable after.invertedTable thread count address file change)
    (other : Thread) (living : after.Alive other) :
    other = thread ∨ other ≠ thread ∧ before.Alive other := by
  rw [Kernel.Alive, created.keys, List.mem_append, List.mem_singleton] at living
  rcases living with old | new
  · refine .inr ⟨?_, old⟩
    rintro rfl
    exact created.fresh old
  · exact .inl new

/-- The knowledge follows each step, and loads of own stores keep the promise. -/
theorem Tracks.stepped {before after : Kernel} {action : Action} {memories : Thread → Memory}
    {families : Families} (tracks : Tracks before.Alive memories families) (sound : Sound before)
    (consistent : Consistent memories (observe before action after))
    (stepped : Stepped before action after) :
    Tracks after.Alive ((observe before action after).foldl Event.apply memories)
        ((observeForks before action after).foldl Families.apply families) ∧
      (Runs.Accepts Families.apply Families.OwnWrites families (observeForks before action after) →
        Runs.Accepts Families.apply Families.Keeps families (observeForks before action after)) := by
  cases stepped with
  | @exec thread file address _ magic created tlb running storage =>
    exact ⟨tracks.executed created.alive file file.numPages, fun _ => ⟨trivial, trivial⟩⟩
  | @fork thread father count file address _ running filed pages created tlb same storage =>
    rw [observe_fork running filed]
    simp only [observeForks, running]
    exact ⟨tracks.forked created.alive (sound.running father running) file,
      fun _ => ⟨trivial, trivial⟩⟩
  | exit running destroyed idle =>
    refine ⟨tracks.mono ?_, fun _ => trivial⟩
    intro other living
    rw [Kernel.Alive, destroyed.keys] at living
    exact List.mem_of_mem_erase living
  | switchTo member views keys homes tlb running storage =>
    refine ⟨tracks.mono ?_, fun _ => trivial⟩
    intro other living
    rwa [Kernel.Alive, keys] at living
  | load running hit decoded =>
    simp only [observeForks]
    rw [hit.observe_load running decoded] at consistent ⊢
    exact ⟨tracks, fun mine => ⟨tracks.loaded (sound.running _ running) consistent.1 mine.1, trivial⟩⟩
  | store running hit encoded =>
    simp only [observeForks]
    rw [hit.observe_store running encoded]
    exact ⟨tracks.stored (sound.running _ running) _ _, fun _ => ⟨trivial, trivial⟩⟩
  | @fault thread action addr size home slot number origin _ running reference missed located
      faulted =>
    have silent : observeForks before action after = [] := by
      cases action with
      | load | store => simp only [observeForks, missed.observe reference, List.map_nil]
      | exec | fork | exit | switchTo => simp [Action.reference] at reference
    rw [silent, missed.observe reference]
    refine ⟨tracks.mono ?_, fun _ => trivial⟩
    intro other living
    rwa [Kernel.Alive, faulted.keys] at living

/-- In the virtual memory build the promise holds for loads of own stores, while frames suffice. -/
theorem forkShares_of_loadsOwn {kernel : Kernel} {history : List Access}
    (traced : Runs.Traced step Boot FindSucceeds observeForks kernel history)
    (mine : LoadsOwn history) : ForkShares history := by
  have all : Roomy kernel ∧ (∃ memories, Simulates kernel memories ∧
      Tracks kernel.Alive memories (Families.after history)) ∧
      (LoadsOwn history → ForkShares history) := by
    refine traced.invariant (fun kernel history => Roomy kernel ∧ (∃ memories,
      Simulates kernel memories ∧ Tracks kernel.Alive memories (Families.after history)) ∧
      (LoadsOwn history → ForkShares history)) ?_ ?_
    · intro kernel boot
      have nobody : ∀ thread, ¬ kernel.Alive thread := by
        intro thread
        simp [Kernel.Alive, boot.noSpaces, Map.getKeys, Map.empty]
      refine ⟨boot.roomy, ⟨fun _ _ => 0, ?_, ?_⟩, fun _ => trivial⟩
      · intro ref entry home seen
        simp [boot.noSpaces, InvertedTable.view_eq] at seen
      · exact ⟨⟨fun thread _ living => (nobody thread living).elim,
          fun thread living => (nobody thread living).elim, by simp [Families.after, Families.start]⟩,
          fun thread living => (nobody thread living).elim,
          fun thread living => (nobody thread living).elim, fun _ _ _ => rfl⟩
    · rintro before action after history ⟨roomy, ⟨memories, simulates, tracks⟩, shares⟩ allowed done
      obtain ⟨stepped, -⟩ := roomy.sound.step done
      obtain ⟨consistent, simulates'⟩ := simulates.stepped roomy allowed stepped
      obtain ⟨tracks', keeps⟩ := tracks.stepped roomy.sound consistent stepped
      rw [Families.after_append]
      refine ⟨roomy.stepped allowed stepped, ⟨_, simulates', tracks'⟩, ?_⟩
      intro mine
      obtain ⟨earlier, here⟩ := Runs.accepts_append.mp mine
      exact Runs.accepts_append.mpr ⟨shares earlier, keeps here⟩
  exact all.2.2 mine

/--
`Fork` shares code and data in the linear build, and nothing in the virtual memory build.

The linear build keeps the promise in every run whose exits are safe, in particular before any exit.
The virtual memory build keeps it as long as no thread looks for what a relative stored.
-/
theorem fork_shares_memory (history : List Userprog.Access) :
    (∀ kernel, Runs.Traced Userprog.step Userprog.Boot Userprog.SafeExit Userprog.observe
      kernel history → ForkShares history) ∧
    (∀ kernel, Runs.Traced step Boot FindSucceeds observeForks kernel history →
      LoadsOwn history → ForkShares history) :=
  ⟨fun _ traced => Userprog.forkShares_of_traced traced,
    fun _ traced mine => forkShares_of_loadsOwn traced mine⟩

/-- Thread 1 stores a word and calls `Fork`, and the child loads the word. -/
def storeAndFork : List Userprog.Action :=
  [.exec 1 Userprog.shortProgram, .store 0#32 4 7#32, .fork 2, .switchTo 2, .load 0#32 4]

/-- The child sees the word in the linear build, and a thread sees its own words in the other. -/
theorem fork_shares_memory_storeAndFork :
    (∃ kernel, Runs.run Userprog.step Userprog.firstKernel storeAndFork = .ok kernel ∧
      ForkShares (Runs.record Userprog.step Userprog.observe Userprog.firstKernel storeAndFork)) ∧
    (∃ kernel, Runs.run step firstKernel storeAndLoad = .ok kernel ∧
      ForkShares (Runs.record step observeForks firstKernel storeAndLoad)) := by
  refine ⟨?_, ?_⟩
  · obtain ⟨kernel, ran, -⟩ := Runs.exists_of_runsTo
      (show Runs.runsTo Userprog.step Userprog.firstKernel storeAndFork (fun _ => true) = true by
        decide +kernel)
    have guarded : Runs.Guarded Userprog.step Userprog.SafeExit Userprog.firstKernel storeAndFork :=
      Runs.guarded_of_forall (fun kernel action member => Userprog.safeExit_of_ne (by
        rintro rfl
        simp [storeAndFork] at member) kernel) Userprog.firstKernel
    have traced : Runs.Traced Userprog.step Userprog.Boot Userprog.SafeExit Userprog.observe kernel
        ([] ++ Runs.record Userprog.step Userprog.observe Userprog.firstKernel storeAndFork) :=
      Runs.Traced.extend (.start Userprog.firstKernel_boot) guarded ran
    rw [List.nil_append] at traced
    exact ⟨kernel, ran, (fork_shares_memory _).1 kernel traced⟩
  · obtain ⟨kernel, ran, -⟩ := Runs.exists_of_runsTo
      (show Runs.runsTo step firstKernel storeAndLoad (fun _ => true) = true by decide +kernel)
    have guarded : Runs.Guarded step FindSucceeds firstKernel storeAndLoad := by decide +kernel
    have mine : LoadsOwn (Runs.record step observeForks firstKernel storeAndLoad) := by
      decide +kernel
    have traced : Runs.Traced step Boot FindSucceeds observeForks kernel
        ([] ++ Runs.record step observeForks firstKernel storeAndLoad) :=
      Runs.Traced.extend (.start firstKernel_boot) guarded ran
    rw [List.nil_append] at traced
    exact ⟨kernel, ran, (fork_shares_memory _).2 kernel traced mine⟩

/-- Thread 1 stores a word and calls `Fork`, and the child loads the word; references fault once. -/
def storeForkLoad : List Action :=
  [.exec 1 wideProgram 1000, .store 0#32 4 7#32, .store 0#32 4 7#32, .fork 2 2000, .switchTo 2,
    .load 0#32 4, .load 0#32 4]

/-- In the virtual memory build the child loads the word of the executable instead. -/
theorem not_forkShares_storeForkLoad :
    Boot firstKernel ∧ ∃ kernel, Runs.run step firstKernel storeForkLoad = .ok kernel ∧
      ¬ ForkShares (Runs.record step observeForks firstKernel storeForkLoad) := by
  refine ⟨firstKernel_boot, ?_⟩
  obtain ⟨kernel, ran, -⟩ := Runs.exists_of_runsTo
    (show Runs.runsTo step firstKernel storeForkLoad (fun _ => true) = true by decide +kernel)
  refine ⟨kernel, ran, ?_⟩
  have shown : Runs.record step observeForks firstKernel storeForkLoad =
      [.executed 1 33, .stored 1 0#32 [7#8, 0#8, 0#8, 0#8], .forked 1 2,
        .loaded 2 0#32 4 0x05050505#32] := by decide +kernel
  rw [shown]
  rintro ⟨-, -, -, ⟨bytes, decoded, length, known⟩, -⟩
  -- The first byte stored was 7, while the first byte of the word loaded is 5.
  have first := known 0 7#8 (by decide) (by decide)
  match bytes, length with
  | [b0, b1, b2, b3], _ =>
    obtain rfl : b0 = 7#8 := by simpa using first
    have bit := congrArg (fun word : BitVec 32 => word.getLsbD 1) (Option.some.inj decoded)
    rw [BitVec.getLsbD_append] at bit
    simp at bit

end Nachos.Vm
