import Nachos.Userprog.AddrSpaceLaws
import Nachos.Userprog.Family

/-! Everything one action of the linear build can do, said once. -/

namespace Nachos.Userprog

/-- Some frames were given back and cleared, and nothing else changed. -/
structure Freed (before after : Kernel) (gone : Nat → Prop) : Prop where
  bits : ∀ number, number < numPhysPages → (after.physicalPageMap.testBit number = true ↔
    before.physicalPageMap.testBit number = true ∧ ¬ gone number)
  frames : ∀ number, ¬ gone number → after.frame number = before.frame number
  numBits : after.physicalPageMap.numBits = numPhysPages

/-- Frames may be given back in two rounds. -/
theorem Freed.trans {before middle after : Kernel} {gone gone' : Nat → Prop}
    (first : Freed before middle gone) (second : Freed middle after gone') :
    Freed before after fun number => gone number ∨ gone' number := by
  refine ⟨?_, ?_, second.numBits⟩
  · intro number small
    rw [second.bits number small, first.bits number small, not_or, and_assoc]
  · intro number kept
    rw [not_or] at kept
    rw [second.frames number kept.2, first.frames number kept.1]

/-- The frames may be named in another way. -/
theorem Freed.congr {before after : Kernel} {gone gone' : Nat → Prop}
    (freed : Freed before after gone) (same : ∀ number, gone number ↔ gone' number) :
    Freed before after gone' := by
  have equal : gone = gone' := funext fun number => propext (same number)
  exact equal ▸ freed

/-- Giving back one frame. -/
theorem Freed.single {before : Kernel} {number : Nat}
    (bits : before.physicalPageMap.numBits = numPhysPages) :
    Freed before { before with
      mainMemory := Blocks.setBlock pageSize before.mainMemory number zeroPage
      physicalPageMap := before.physicalPageMap.clearBit number } fun other => other = number := by
  refine ⟨?_, ?_, bits⟩
  · intro other small
    rw [BitMap.testBit_clearBit _ _ _ (by rw [bits]; exact small)]
    simp only [Bool.and_eq_true, Bool.not_eq_true', decide_eq_false_iff_not, ne_comm, and_comm]
  · intro other differ
    exact Blocks.block_setBlock_ne _ differ _

/-- Is this frame named by one of the entries at these indices? -/
def NamedAt (table : List TranslationEntry) (visited : List Int) (number : Nat) : Prop :=
  ∃ index ∈ visited, ∃ entry, entryAt table index = some entry ∧ entry.physicalPage = number

/-- A loop of the destructor gives back the frames of the entries it visits. -/
theorem Kernel.releasePages_spec {table : List TranslationEntry} {visited : List Int} :
    ∀ {before after : Kernel}, before.physicalPageMap.numBits = numPhysPages →
      before.releasePages table visited = .ok after →
      Freed before after (NamedAt table visited) ∧ after.space = before.space := by
  induction visited with
  | nil =>
    intro before after bits released
    simp only [Kernel.releasePages, Except.ok.injEq] at released
    subst released
    exact ⟨⟨by simp [NamedAt], fun _ _ => rfl, bits⟩, rfl⟩
  | cons index visited ih =>
    intro before after bits released
    rw [Kernel.releasePages] at released
    split at released
    · simp at released
    · rename_i entry located
      obtain ⟨map, cleared, released⟩ := Runs.bind_eq_ok.mp released
      obtain ⟨number, named, released⟩ := Runs.bind_eq_ok.mp released
      obtain ⟨framed, -⟩ := frameNumber_ok named
      rw [framed] at cleared
      rw [BitMap.clear_ok cleared] at released
      obtain ⟨rest, unchanged⟩ := ih (by exact bits) released
      refine ⟨((Freed.single bits).trans rest).congr ?_, unchanged⟩
      -- The frame of the first entry is the one just cleared.
      intro other
      constructor
      · rintro (rfl | ⟨later, member, rest⟩)
        · exact ⟨index, by simp, entry, located, framed⟩
        · exact ⟨later, List.mem_cons_of_mem _ member, rest⟩
      · rintro ⟨later, member, found, place, equal⟩
        rcases List.mem_cons.mp member with rfl | member
        · rw [located, Option.some.injEq] at place
          subst place
          left
          omega
        · exact .inr ⟨later, member, found, place, equal⟩

/-- A loop visits the indices between its bounds. -/
theorem mem_indices {first bound index : Int} :
    index ∈ indices first bound ↔ first ≤ index ∧ index < bound := by
  simp only [indices, List.mem_map, List.mem_range]
  constructor
  · rintro ⟨offset, small, rfl⟩
    omega
  · rintro ⟨low, high⟩
    exact ⟨(index - first).toNat, by omega, by omega⟩

/-- The frames that the destructor of an address space gives back. -/
def Layout.Releases (layout : Layout) (number : Nat) : Prop :=
  ∃ page : Nat, layout.frames[page]? = some (number : Int) ∧
    (layout.usage = 1 ∨ layout.stackPagesInit ≤ page)

/-- The frames at the indices of a loop are those of the pages it visits. -/
theorem namedAt_indices {space : AddrSpace} {first bound : Int} {number : Nat} :
    NamedAt space.pageTable (indices first bound) number ↔
      ∃ page : Nat, space.layout.frames[page]? = some (number : Int) ∧
        first ≤ page ∧ (page : Int) < bound := by
  simp only [NamedAt, mem_indices, entryAt, AddrSpace.layout, List.getElem?_map,
    Option.map_eq_some_iff]
  constructor
  · rintro ⟨index, ⟨low, high⟩, entry, located, named⟩
    split at located
    · exact ⟨index.toNat, ⟨entry, located, named⟩, by omega, by omega⟩
    · simp at located
  · rintro ⟨page, ⟨entry, located, named⟩, low, high⟩
    exact ⟨page, ⟨low, high⟩, entry, by simpa using located, named⟩

/-- The destructor gives back the stack, and the rest when its own counter says so. -/
theorem Kernel.destroySpace_spec {before after : Kernel} {space : AddrSpace}
    (bits : before.physicalPageMap.numBits = numPhysPages)
    (destroyed : before.destroySpace space = .ok after) :
    Freed before after space.layout.Releases ∧ after.space = before.space := by
  unfold Kernel.destroySpace at destroyed
  obtain ⟨middle, first, second⟩ := Runs.bind_eq_ok.mp destroyed
  have globals : Freed before middle (fun number => space.usage = 1 ∧
      NamedAt space.pageTable (indices 0 space.stackPagesInit) number) ∧
      middle.space = before.space := by
    unfold Kernel.releaseGlobals at first
    split at first
    · rename_i last
      obtain ⟨freed, unchanged⟩ := Kernel.releasePages_spec bits first
      refine ⟨freed.congr ?_, unchanged⟩
      intro number
      rw [iff_and_self]
      intro _
      omega
    · rename_i others
      simp only [Except.ok.injEq] at first
      subst first
      have several : space.usage ≠ 1 := by omega
      exact ⟨⟨by simp [several], fun _ _ => rfl, bits⟩, rfl⟩
  obtain ⟨globals, unchanged⟩ := globals
  obtain ⟨stack, unchanged'⟩ := Kernel.releasePages_spec globals.numBits second
  refine ⟨(globals.trans stack).congr ?_, unchanged'.trans unchanged⟩
  intro number
  have same : space.layout.stackPagesInit = space.stackPagesInit := by
    simp [Layout.stackPagesInit, AddrSpace.stackPagesInit, AddrSpace.layout]
  simp only [namedAt_indices, Layout.Releases, same]
  constructor
  · rintro (⟨last, page, named, -, -⟩ | ⟨page, named, low, -⟩)
    · exact ⟨page, named, .inl last⟩
    · exact ⟨page, named, .inr low⟩
  · rintro ⟨page, named, reason⟩
    have inside : page < space.pageTable.length := by
      have := (List.getElem?_eq_some_iff.mp named).1
      simpa [AddrSpace.layout] using this
    by_cases low : space.stackPagesInit ≤ page
    · exact .inr ⟨page, named, low, by omega⟩
    · exact .inl ⟨reason.resolve_right low, page, named, by omega, by omega⟩

/-- A new address space, some of whose pages have a frame of their own. -/
structure Created (before after : Kernel) (thread : Thread) (layout : Layout) (own : Nat → Bool)
    (old : List Int) : Prop where
  absent : before.layout thread = none
  layouts : ∀ other, after.layout other =
    if other = thread then some layout else before.layout other
  filled : Filled before after own old layout.frames

/-- Where a new address space is put does not matter to its frames. -/
theorem Filled.setSpace {before after : Kernel} {own : Nat → Bool} {old new : List Int}
    (filled : Filled before after own old new) (thread : Thread) (space : Option AddrSpace)
    (current : Option Thread) :
    Filled before { after.setSpace thread space with currentThread := current } own old new :=
  ⟨filled.length, filled.kept, filled.taken, filled.apart, filled.bits, filled.frames,
    filled.numBits⟩

/-- A reference reached the frame of a page of the running thread. -/
structure Hit (before : Kernel) (thread : Thread) (layout : Layout) (addr : BitVec 32) (size : Nat)
    (number : Nat) : Prop where
  running : before.currentThread = some thread
  located : before.layout thread = some layout
  framed : layout.frames[virtualPageNumber addr]? = some (number : Int)
  inside : number < numPhysPages
  aligned : misaligned addr size = false

/-- What an action that succeeds has found and done. -/
inductive Stepped (before : Kernel) : Action → Kernel → Prop
  | exec {thread : Thread} {file : Executable} {layout : Layout} {old : List Int} {after : Kernel}
      (created : Created before after thread layout (fun _ => true) old)
      (pages : layout.frames.length = file.numPages) : Stepped before (.exec thread file) after
  | fork {parent thread : Thread} {father layout : Layout} {after : Kernel}
      (running : before.currentThread = some parent)
      (located : before.layout parent = some father)
      (created : Created before after thread layout (fun page => father.stackPagesInit ≤ page)
        father.frames) : Stepped before (.fork thread) after
  | exit {thread : Thread} {space : AddrSpace} {after : Kernel}
      (running : before.running = some (thread, space))
      (layouts : ∀ other, after.layout other = if other = thread then none else before.layout other)
      (freed : Freed before after space.layout.Releases) : Stepped before .exit after
  | switchTo {thread : Thread} {after : Kernel} (layouts : after.layout = before.layout)
      (memory : after.mainMemory = before.mainMemory)
      (map : after.physicalPageMap = before.physicalPageMap) :
      Stepped before (.switchTo thread) after
  | load {thread : Thread} {layout : Layout} {addr value : BitVec 32} {size number : Nat}
      {after : Kernel} (hit : Hit before thread layout addr size number)
      (decoded : decodeBytes (Blocks.cells before.mainMemory
        (number * pageSize + pageOffset addr) size) = some value)
      (layouts : after.layout = before.layout) (memory : after.mainMemory = before.mainMemory)
      (map : after.physicalPageMap = before.physicalPageMap)
      (shows : observe before (.load addr size) after = [.loaded thread addr size value]) :
      Stepped before (.load addr size) after
  | store {thread : Thread} {layout : Layout} {addr value : BitVec 32} {size number : Nat}
      {bytes : List Byte} {after : Kernel} (hit : Hit before thread layout addr size number)
      (encoded : encodeBytes size value = some bytes)
      (layouts : after.layout = before.layout)
      (memory : after.mainMemory =
        Blocks.setCells before.mainMemory (number * pageSize + pageOffset addr) bytes)
      (map : after.physicalPageMap = before.physicalPageMap) :
      Stepped before (.store addr size value) after

/-- The running thread is the current one, and its address space is the one it has. -/
theorem Kernel.running_eq_some {kernel : Kernel} {thread : Thread} {space : AddrSpace} :
    kernel.running = some (thread, space) ↔
      kernel.currentThread = some thread ∧ kernel.space thread = some space := by
  simp only [Kernel.running, Option.bind_eq_some_iff, Option.map_eq_some_iff, Prod.mk.injEq]
  constructor
  · rintro ⟨current, running, found, located, rfl, rfl⟩
    exact ⟨running, located⟩
  · rintro ⟨running, located⟩
    exact ⟨thread, running, space, located, rfl, rfl⟩

/-- Giving a thread an address space changes the layout of that thread only. -/
theorem Kernel.layout_setSpace (kernel : Kernel) (thread other : Thread) (space : Option AddrSpace) :
    (kernel.setSpace thread space).layout other =
      if other = thread then space.map AddrSpace.layout else kernel.layout other := by
  simp only [Kernel.layout, Kernel.setSpace]
  split <;> rfl

/-- A reference sets bits in the page table and moves no page. -/
theorem Kernel.layout_withTable {kernel : Kernel} {thread : Thread} {space : AddrSpace}
    (located : kernel.space thread = some space) (position : Nat) (writing : Bool) :
    (kernel.withTable thread space (.pageTable (space.pageTable.modify position
      (·.touch writing)))).layout = kernel.layout := by
  funext other
  rw [Kernel.withTable, Kernel.layout_setSpace]
  split
  · rename_i same
    subst same
    have frames : (space.pageTable.modify position (·.touch writing)).map
        TranslationEntry.physicalPage = space.pageTable.map TranslationEntry.physicalPage := by
      apply List.ext_getElem?
      intro page
      simp only [List.getElem?_map, List.getElem?_modify]
      cases space.pageTable[page]? with
      | none => rfl
      | some entry => by_cases here : position = page <;> simp [here]
    simp [Kernel.layout, located, AddrSpace.layout, TranslationTable.entries, frames]
  · rfl

/-- A translation by the page table of the running thread is a hit. -/
theorem Hit.of_translate {kernel : Kernel} {thread : Thread} {space : AddrSpace}
    {addr : BitVec 32} {size physAddr : Nat} {writing : Bool} {table : TranslationTable}
    (running : kernel.running = some (thread, space))
    (done : translate (.pageTable space.pageTable) addr size writing = .ok (physAddr, table)) :
    ∃ number, Hit kernel thread space.layout addr size number ∧
      physAddr = number * pageSize + pageOffset addr ∧
      table = .pageTable (space.pageTable.modify (virtualPageNumber addr) (·.touch writing)) := by
  obtain ⟨current, located⟩ := Kernel.running_eq_some.mp running
  obtain ⟨position, entry, number, translated, rfl, rfl⟩ := translate_ok done
  obtain ⟨rfl, -⟩ := findEntry_pageTable_ok translated.found
  have place : space.pageTable[virtualPageNumber addr]? = some entry := translated.located
  refine ⟨number, ⟨current, by simp [Kernel.layout, located], ?_, translated.inside,
    translated.aligned⟩, rfl, rfl⟩
  simp [AddrSpace.layout, place, translated.framed]

/-- An action that succeeds has done one of these things. -/
theorem step_spec {before after : Kernel} {action : Action}
    (bits : before.physicalPageMap.numBits = numPhysPages)
    (done : step before action = .ok after) : Stepped before action after := by
  cases action with
  | exec thread file =>
    simp only [step] at done
    split at done
    · simp at done
    · rename_i absent
      obtain ⟨⟨space, middle⟩, loaded, done⟩ := Runs.bind_eq_ok.mp done
      simp only [Pure.pure, Except.pure, Except.ok.injEq] at done
      subst done
      obtain ⟨old, filled, length, -, spaces⟩ := Kernel.loadExecutable_spec bits loaded
      refine .exec ⟨by simp [Kernel.layout, absent], ?_, filled.setSpace thread (some space) _⟩
        (by rw [filled.length, length])
      intro other
      have moved := middle.layout_setSpace thread other (some space)
      simpa [Kernel.layout, spaces] using moved
  | fork thread =>
    simp only [step] at done
    split at done
    · rename_i parent father running absent
      obtain ⟨⟨space, middle⟩, copied, done⟩ := Runs.bind_eq_ok.mp done
      simp only [Pure.pure, Except.pure, Except.ok.injEq] at done
      subst done
      obtain ⟨current, located⟩ := Kernel.running_eq_some.mp running
      obtain ⟨filled, -, spaces, -⟩ := Kernel.copySpace_spec bits copied
      have found : before.layout parent = some father.layout := by simp [Kernel.layout, located]
      refine .fork current found ⟨by simp [Kernel.layout, absent], ?_,
        filled.setSpace thread (some space) _⟩
      intro other
      have moved := middle.layout_setSpace thread other (some space)
      simpa [Kernel.layout, spaces] using moved
    · simp at done
  | exit =>
    simp only [step] at done
    split at done
    · simp at done
    · rename_i thread space running
      obtain ⟨middle, destroyed, done⟩ := Runs.bind_eq_ok.mp done
      simp only [Pure.pure, Except.pure, Except.ok.injEq] at done
      subst done
      obtain ⟨freed, spaces⟩ := Kernel.destroySpace_spec bits destroyed
      refine .exit running ?_ ⟨freed.bits, freed.frames, freed.numBits⟩
      intro other
      have moved := middle.layout_setSpace thread other none
      simpa [Kernel.layout, spaces] using moved
  | switchTo thread =>
    simp only [step] at done
    split at done
    · simp at done
    · simp only [Except.ok.injEq] at done
      subst done
      exact .switchTo rfl rfl rfl
  | load addr size =>
    simp only [step] at done
    split at done
    · simp at done
    · rename_i thread space running
      split at done
      · simp at done
      · rename_i value table read
        simp only [Except.ok.injEq] at done
        subst done
        obtain ⟨physAddr, translated, decoded⟩ := readMem_ok read
        obtain ⟨number, hit, rfl, rfl⟩ := Hit.of_translate running translated
        have located := (Kernel.running_eq_some.mp running).2
        exact .load hit decoded (Kernel.layout_withTable located _ _) rfl rfl
          (by simp [observe, running, read])
  | store addr size value =>
    simp only [step] at done
    split at done
    · simp at done
    · rename_i thread space running
      split at done
      · simp at done
      · rename_i memory table written
        simp only [Except.ok.injEq] at done
        subst done
        obtain ⟨physAddr, bytes, translated, encoded, rfl⟩ := writeMem_ok written
        obtain ⟨number, hit, rfl, rfl⟩ := Hit.of_translate running translated
        have located := (Kernel.running_eq_some.mp running).2
        exact .store hit encoded (Kernel.layout_withTable located _ _) rfl rfl

end Nachos.Userprog
