import Nachos.Vm.Coherence
import Nachos.Vm.Flat

/-! While free frames suffice, paging is invisible: programs see flat memories. -/

namespace Nachos.Vm

/-- The bytes of a page, wherever they are. -/
def Kernel.contents (kernel : Kernel) (file : Executable) (page : Nat) (entry : TranslationEntry) :
    Page :=
  if entry.physicalPage = noPhysicalPage then initialPage file page
  else kernel.frame entry.physicalPage.toNat

/-- The pages of every address space hold what its flat memory holds. -/
def Simulates (kernel : Kernel) (memories : Thread → Memory) : Prop :=
  ∀ ref entry home, kernel.invertedTable.view ref = some entry →
    kernel.invertedTable.home ref.thread = some home →
    Blocks.block pageSize (memories ref.thread) ref.page = kernel.contents home.2 ref.page entry

/-- The invariant of runs in which `Find` never fails. -/
structure Roomy (kernel : Kernel) : Prop where
  sound : Sound kernel
  owned : Owned kernel
  coherent : Coherent kernel
  unloaded : Unloaded kernel

/-- Pages in memory hold the bytes of their frame. -/
theorem Kernel.contents_frame {kernel : Kernel} {file : Executable} {page number : Nat}
    {entry : TranslationEntry} (framed : entry.physicalPage = number) :
    kernel.contents file page entry = kernel.frame number := by
  rw [contents, if_neg (by rw [framed]; exact natCast_ne_noPhysicalPage number), framed]
  rfl

/-- The contents of a page depend on its frame and on the memory only. -/
theorem Kernel.contents_congr {before after : Kernel} {file : Executable} {page : Nat}
    {one two : TranslationEntry} (frames : one.physicalPage = two.physicalPage)
    (memory : ∀ number : Nat, two.physicalPage = number →
      after.frame number = before.frame number) (framed : Framed two.physicalPage) :
    after.contents file page one = before.contents file page two := by
  rcases framed with absent | ⟨number, named, -⟩
  · simp [contents, frames, absent]
  · rw [contents_frame (frames.trans named), contents_frame named, memory number named]

section References

variable {kernel : Kernel} {addr value : BitVec 32} {size slot number : Nat}
  {cached : TranslationEntry} {bytes : List Byte}

/-- A load that hits reads the frame. -/
theorem Hit.readMem (hit : Hit kernel addr size false slot cached number)
    (decoded : decodeBytes (Blocks.cells kernel.mainMemory
      (number * pageSize + pageOffset addr) size) = some value) :
    readMem (.tlb kernel.tlb) kernel.mainMemory addr size =
      .ok (value, .tlb (kernel.tlb.modify slot (·.touch false))) := by
  have sized : size = 1 ∨ size = 2 ∨ size = 4 := by simpa using decodeBytes_some decoded
  simp only [Nachos.readMem, translate_of_translated hit.translated sized, decoded]
  rfl

/-- A store that hits writes the frame. -/
theorem Hit.writeMem (hit : Hit kernel addr size true slot cached number)
    (encoded : encodeBytes size value = some bytes) :
    writeMem (.tlb kernel.tlb) kernel.mainMemory addr size value =
      .ok (Blocks.setCells kernel.mainMemory (number * pageSize + pageOffset addr) bytes,
        .tlb (kernel.tlb.modify slot (·.touch true))) := by
  have sized := (encodeBytes_some encoded).2
  simp only [Nachos.writeMem, translate_of_translated hit.translated sized, encoded]
  rfl

/-- A load that hits shows the value it reads. -/
theorem Hit.observe_load {after : Kernel} {thread : Thread}
    (hit : Hit kernel addr size false slot cached number)
    (running : kernel.currentThread = some thread)
    (decoded : decodeBytes (Blocks.cells kernel.mainMemory
      (number * pageSize + pageOffset addr) size) = some value) :
    observe kernel (.load addr size) after = [.loaded thread addr size value] := by
  simp [observe, running, hit.readMem decoded]

/-- A store that hits shows the bytes it writes. -/
theorem Hit.observe_store {after : Kernel} {thread : Thread}
    (hit : Hit kernel addr size true slot cached number)
    (running : kernel.currentThread = some thread)
    (encoded : encodeBytes size value = some bytes) :
    observe kernel (.store addr size value) after = [.stored thread addr bytes] := by
  simp [observe, running, encoded, hit.writeMem encoded]

/-- `Fork` shows a new address space with the executable of the father. -/
theorem observe_fork {after : Kernel} {thread father : Thread} {file : Executable} {address : Nat}
    (running : kernel.currentThread = some father)
    (filed : (kernel.invertedTable.home father).map Prod.snd = some file) :
    observe kernel (.fork thread address) after = [.created thread file] := by
  rw [InvertedTable.home, Option.map_map, Option.map_eq_some_iff] at filed
  obtain ⟨space, found, rfl⟩ := filed
  simp [observe, running, found]

/-- A reference that misses shows nothing. -/
theorem Missed.observe {action : Action} (missed : Missed kernel addr size)
    (reference : action.reference = some (addr, size)) (after : Kernel) :
    observe kernel action after = [] := by
  have fault : ∀ writing, translate (.tlb kernel.tlb) addr size writing =
      .error (.exception .pageFault) := fun writing =>
    translate_tlb_pageFault.mpr ⟨missed.aligned, missed.missed⟩
  cases action with
  | load addr' size' =>
    obtain ⟨rfl, rfl⟩ : addr' = addr ∧ size' = size := by simpa [Action.reference] using reference
    simp [Vm.observe, readMem_pageFault.mpr (fault false)]
  | store addr' size' value =>
    obtain ⟨rfl, rfl⟩ : addr' = addr ∧ size' = size := by simpa [Action.reference] using reference
    simp [Vm.observe, writeMem_pageFault.mpr (fault true)]
  | exec | fork | exit | switchTo => simp [Action.reference] at reference

/-- The page a hit refers to is in the frame the hit found. -/
theorem Roomy.hit {thread : Thread} {writing : Bool} (roomy : Roomy kernel)
    (running : kernel.currentThread = some thread)
    (hit : Hit kernel addr size writing slot cached number) :
    ∃ entry, kernel.invertedTable.view ⟨thread, virtualPageNumber addr⟩ = some entry ∧
      entry.physicalPage = number := by
  obtain ⟨page, called, frame, -⟩ :=
    roomy.coherent.agrees thread slot cached running hit.located hit.valid
  obtain rfl : page = virtualPageNumber addr := by
    have named := hit.named
    omega
  rw [InvertedTable.frameOf_eq, Option.map_eq_some_iff, hit.translated.framed] at frame
  exact frame

end References

section Faulted

variable {before after : Kernel} {thread : Thread} {action : Action} {addr : BitVec 32}
  {size : Nat} {file : Executable} {slot number : Nat} {origin : Origin}

/-- While `Find` succeeds, pages are only ever found in memory or put into free frames. -/
theorem Roomy.found_or_free (roomy : Roomy before) (running : before.currentThread = some thread)
    (reference : action.reference = some (addr, size)) (missed : Missed before addr size)
    (faulted : Faulted before after ⟨thread, virtualPageNumber addr⟩ file slot number origin)
    (allowed : FindSucceeds before action) : origin = .resident ∨ origin = .free := by
  have spacious : ¬ ∃ victim, origin = .evicted victim := by
    rw [← faulted.findFails_iff roomy.sound running reference missed, allowed]
    simp
  cases origin with
  | resident => exact .inl rfl
  | free => exact .inr rfl
  | evicted victim => exact absurd ⟨victim, rfl⟩ spacious
  | swapped victim contents =>
    -- A page that was never evicted is not valid, so it is not looked for in the store.
    obtain ⟨entry, seen, absent, stored, -⟩ := faulted.justified
    simp only [fromStore, Bool.and_eq_true] at stored
    rw [syncAll_physicalPage] at absent
    have same := roomy.sound.syncAll_absent absent stored.1.1
    rw [same, roomy.unloaded _ entry seen absent] at stored
    simp at stored

/-- Nobody loses a frame while `Find` succeeds. -/
theorem Roomy.victim (roomy : Roomy before) (running : before.currentThread = some thread)
    (reference : action.reference = some (addr, size)) (missed : Missed before addr size)
    (faulted : Faulted before after ⟨thread, virtualPageNumber addr⟩ file slot number origin)
    (allowed : FindSucceeds before action) : origin.victim = none := by
  rcases roomy.found_or_free running reference missed faulted allowed with rfl | rfl <;> rfl

end Faulted

/-- Every step in which `Find` does not fail keeps the invariant. -/
theorem Roomy.stepped {before after : Kernel} {action : Action} (roomy : Roomy before)
    (allowed : FindSucceeds before action) (stepped : Stepped before action after) :
    Roomy after := by
  have sound := roomy.sound.stepped stepped
  have owned := (roomy.owned.stepped roomy.sound stepped).mpr allowed
  cases stepped with
  | exec magic created tlb running storage =>
    exact ⟨sound, owned, .of_flushed tlb, roomy.unloaded.created roomy.sound.harmless created⟩
  | fork father filed pages created tlb running storage =>
    exact ⟨sound, owned, roomy.coherent.forked created tlb running,
      roomy.unloaded.created .id created⟩
  | exit running destroyed idle =>
    exact ⟨sound, owned, ⟨by simp [idle], by simp [idle]⟩, roomy.unloaded.destroyed destroyed⟩
  | switchTo member views keys homes tlb running storage =>
    exact ⟨sound, owned, .of_flushed tlb, roomy.unloaded.changed roomy.sound.harmless views⟩
  | load running hit decoded =>
    exact ⟨sound, owned, roomy.coherent.touched _ _ rfl rfl rfl, roomy.unloaded⟩
  | store running hit encoded =>
    exact ⟨sound, owned, roomy.coherent.touched _ _ rfl rfl rfl, roomy.unloaded⟩
  | fault running reference missed located faulted =>
    have nobody := roomy.victim running reference missed faulted allowed
    refine ⟨sound, owned, ?_, roomy.unloaded.faulted roomy.sound faulted nobody⟩
    refine (roomy.coherent.faulted_iff roomy.sound running missed faulted).mpr ?_
    simp [nobody]

/-- Programs start in room enough. -/
theorem Boot.roomy {kernel : Kernel} (boot : Boot kernel) : Roomy kernel := by
  refine ⟨boot.sound, boot.owned, boot.coherent, ?_⟩
  intro ref entry seen
  simp [boot.noSpaces, InvertedTable.view_eq] at seen

section Simulation

variable {before after : Kernel} {memories : Thread → Memory}

/-- Pages that keep their bytes are simulated as before. -/
theorem Simulates.kept (simulates : Simulates before memories) {ref : PageRef}
    {old entry : TranslationEntry} {home : Nat × Executable} (sound : Sound before)
    (found : before.invertedTable.view ref = some old)
    (located : before.invertedTable.home ref.thread = some home)
    (frames : entry.physicalPage = old.physicalPage)
    (memory : ∀ number : Nat, old.physicalPage = number →
      after.frame number = before.frame number) :
    Blocks.block pageSize (memories ref.thread) ref.page =
      after.contents home.2 ref.page entry := by
  rw [simulates ref old home found located]
  exact (Kernel.contents_congr frames memory (sound.framed ref old found)).symm

/-- A new address space starts with the image of its executable. -/
theorem Simulates.created {thread : Thread} {count address : Nat} {file : Executable}
    {change : TranslationEntry → TranslationEntry} (simulates : Simulates before memories)
    (sound : Sound before) (harmless : Harmless change)
    (created : Created before.invertedTable after.invertedTable thread count address file change)
    (memory : after.mainMemory = before.mainMemory) :
    Simulates after ((Event.created thread file).apply memories) := by
  intro ref entry home seen located
  have homes := created.homes ref.thread
  rw [located] at homes
  rcases created.view_cases seen with ⟨own, -, rfl, -⟩ | ⟨other, old, found, rfl, -⟩
  · rw [if_pos own, Option.some.injEq] at homes
    simp only [Event.apply, own, if_true, homes]
    rw [block_image]
    simp [Kernel.contents, freshEntry]
  · rw [if_neg other] at homes
    simp only [Event.apply, other, if_false]
    refine simulates.kept sound found homes.symm (harmless.physicalPage old) ?_
    intro number _
    rw [Kernel.frame, memory]
    rfl

/-- The memories of the survivors are untouched by an exit. -/
theorem Simulates.destroyed {thread : Thread} (simulates : Simulates before memories)
    (roomy : Roomy before) (destroyed : Destroyed before after thread) :
    Simulates after memories := by
  intro ref entry home seen located
  have homes := destroyed.homes ref.thread
  rw [destroyed.views] at seen
  split at seen
  · simp at seen
  · rename_i other
    rw [if_neg other, located] at homes
    refine simulates.kept roomy.sound seen homes.symm rfl ?_
    intro number named
    -- The frame has one owner, and it is not the thread that exits.
    have mine : before.invertedTable.frameOf ref = some (number : Int) := by
      rw [InvertedTable.frameOf_eq, seen, Option.map_some, named]
    refine (destroyed.kept number ?_ ?_).1
    · rcases roomy.sound.framed ref entry seen with absent | ⟨number', named', inside⟩
      · exact absurd (named.symm.trans absent) (natCast_ne_noPhysicalPage number)
      · omega
    · rintro ⟨page, gone, visible, named'⟩
      have yours : before.invertedTable.frameOf ⟨thread, page⟩ = some (number : Int) := by
        rw [InvertedTable.frameOf_eq, visible, Option.map_some, named']
      have same := roomy.owned.alone ref ⟨thread, page⟩ number mine yours
        (natCast_ne_noPhysicalPage number)
      exact other (by rw [same])

/-- A page fault brings in the bytes that the flat memory has had all along. -/
theorem Simulates.faulted {thread : Thread} {action : Action} {addr : BitVec 32} {size : Nat}
    {home : Nat × Executable} {slot number : Nat} {origin : Origin}
    (simulates : Simulates before memories) (roomy : Roomy before)
    (running : before.currentThread = some thread)
    (reference : action.reference = some (addr, size)) (missed : Missed before addr size)
    (allowed : FindSucceeds before action)
    (located : before.invertedTable.home thread = some home)
    (faulted : Faulted before after ⟨thread, virtualPageNumber addr⟩ home.2 slot number origin) :
    Simulates after memories := by
  have nobody := roomy.victim running reference missed faulted allowed
  obtain ⟨own, shown, reason⟩ := faulted.justified
  intro ref entry other seen there
  rw [faulted.homes] at there
  obtain ⟨old, found, rfl⟩ := faulted.view_after seen
  by_cases same : ref = ⟨thread, virtualPageNumber addr⟩
  · subst same
    obtain rfl : other = home := by simpa [located] using there.symm
    obtain rfl : own = old := by simpa [found] using shown.symm
    rw [Origin.change_page, Kernel.contents_frame rfl, Kernel.frame, faulted.memory,
      simulates _ own other found there]
    rcases roomy.found_or_free running reference missed faulted allowed with rfl | rfl
    · -- The page was in memory, and nothing has moved.
      have framed : own.physicalPage = number := by simpa [Origin.Justified] using reason
      rw [Kernel.contents_frame framed]
      rfl
    · -- The frame was filled with the initial page.
      have absent : own.physicalPage = noPhysicalPage := by simpa using reason.1
      simp [Kernel.contents, absent, Origin.memory]
  · refine simulates.kept roomy.sound found there ?_ ?_
    · rw [Origin.change_other number same (by simp [nobody]), id, syncAll_physicalPage]
    · intro frame framed
      rw [Kernel.frame, faulted.memory]
      rcases roomy.found_or_free running reference missed faulted allowed with rfl | rfl
      · rfl
      · -- The filled frame was free, so it is not the frame of another page.
        obtain ⟨-, -, clear, -⟩ := reason
        have differ : frame ≠ number := by
          rintro rfl
          have set := (roomy.owned.marked frame faulted.inside).mpr
            ⟨ref, by rw [InvertedTable.frameOf_eq, found, Option.map_some, framed]⟩
          simp [clear] at set
        simp only [Origin.memory, Blocks.block_setBlock, differ, if_false]
        rfl

/-- The frame that a hit finds holds the page of the flat memory. -/
theorem Simulates.block_hit {thread : Thread} {addr : BitVec 32} {size slot number : Nat}
    {writing : Bool} {cached : TranslationEntry} (simulates : Simulates before memories)
    (roomy : Roomy before) (running : before.currentThread = some thread)
    (hit : Hit before addr size writing slot cached number) :
    Blocks.block pageSize before.mainMemory number =
      Blocks.block pageSize (memories thread) (virtualPageNumber addr) := by
  obtain ⟨entry, seen, framed⟩ := roomy.hit running hit
  obtain ⟨space, found, -⟩ := InvertedTable.entryAddress_of_view seen
  have located : before.invertedTable.home thread = some (space.address, space.file) := by
    rw [InvertedTable.home, found]
    rfl
  rw [simulates ⟨thread, virtualPageNumber addr⟩ entry _ seen located, Kernel.contents_frame framed]
  rfl

/-- A load that hits reads the flat memory. -/
theorem Simulates.loaded {thread : Thread} {addr value : BitVec 32} {size slot number : Nat}
    {cached : TranslationEntry} (simulates : Simulates before memories) (roomy : Roomy before)
    (running : before.currentThread = some thread)
    (hit : Hit before addr size false slot cached number)
    (decoded : decodeBytes (Blocks.cells before.mainMemory
      (number * pageSize + pageOffset addr) size) = some value) :
    decodeBytes (Blocks.cells (memories thread) addr.toNat size) = some value := by
  have sized : size = 1 ∨ size = 2 ∨ size = 4 := by simpa using decodeBytes_some decoded
  have fits := pageOffset_add_le hit.translated.aligned sized
  rw [toNat_eq_page_offset, ← Blocks.cells_of_block (simulates.block_hit roomy running hit) fits,
    decoded]

/-- A store that hits writes the flat memory. -/
theorem Simulates.stored {thread : Thread} {addr value : BitVec 32} {size slot number : Nat}
    {cached : TranslationEntry} {bytes : List Byte} (simulates : Simulates before memories)
    (roomy : Roomy before) (running : before.currentThread = some thread)
    (hit : Hit before addr size true slot cached number)
    (encoded : encodeBytes size value = some bytes)
    (tables : after.invertedTable = before.invertedTable)
    (memory : after.mainMemory = Blocks.setCells before.mainMemory
      (number * pageSize + pageOffset addr) bytes) :
    Simulates after ((Event.stored thread addr bytes).apply memories) := by
  obtain ⟨length, sized⟩ := encodeBytes_some encoded
  have fits : pageOffset addr + bytes.length ≤ pageSize := by
    rw [length]
    exact pageOffset_add_le hit.translated.aligned sized
  obtain ⟨own, shown, framed⟩ := roomy.hit running hit
  have frames : ∀ other, after.frame other =
      if other = number then
        Blocks.patch (before.frame number) (pageOffset addr) bytes
      else before.frame other := by
    intro other
    rw [Kernel.frame, memory, Blocks.block_setCells _ fits]
    rfl
  intro ref entry home seen located
  rw [tables] at seen located
  by_cases same : ref = ⟨thread, virtualPageNumber addr⟩
  · -- Both the frame and the page of the flat memory are patched.
    subst same
    obtain rfl : own = entry := by simpa [shown] using seen
    simp only [Event.apply, if_true]
    rw [Kernel.contents_frame framed, frames, if_pos rfl, toNat_eq_page_offset,
      Blocks.block_setCells _ fits, if_pos rfl, ← simulates.block_hit roomy running hit]
    rfl
  · have kept : Blocks.block pageSize (memories ref.thread) ref.page =
        after.contents home.2 ref.page entry := by
      refine simulates.kept roomy.sound seen located rfl ?_
      intro other named
      -- The frame has one owner, so another page has another frame.
      rw [frames, if_neg]
      rintro rfl
      refine same (roomy.owned.alone ref _ other ?_ ?_ (natCast_ne_noPhysicalPage other))
      · rw [InvertedTable.frameOf_eq, seen, Option.map_some, named]
      · rw [InvertedTable.frameOf_eq, shown, Option.map_some, framed]
    rw [← kept]
    by_cases own_ : ref.thread = thread
    · have pages : ref.page ≠ virtualPageNumber addr := by
        intro page
        exact same (by cases ref; simp_all)
      simp only [Event.apply, own_, if_true]
      rw [toNat_eq_page_offset, Blocks.block_setCells _ fits, if_neg pages]
    · simp only [Event.apply, own_, if_false]

/-- What a step shows agrees with the flat memories, and they follow the step. -/
theorem Simulates.stepped {action : Action} (simulates : Simulates before memories)
    (roomy : Roomy before) (allowed : FindSucceeds before action)
    (stepped : Stepped before action after) :
    Consistent memories (observe before action after) ∧
      Simulates after ((observe before action after).foldl Event.apply memories) := by
  cases stepped with
  | exec magic created tlb running storage =>
    exact ⟨⟨trivial, trivial⟩,
      simulates.created roomy.sound roomy.sound.harmless created storage.memory⟩
  | @fork thread father count file address _ current filed pages created tlb running storage =>
    rw [observe_fork current filed]
    exact ⟨⟨trivial, trivial⟩, simulates.created roomy.sound .id created storage.memory⟩
  | exit running destroyed idle =>
    exact ⟨trivial, simulates.destroyed roomy destroyed⟩
  | switchTo member views keys homes tlb running storage =>
    refine ⟨trivial, ?_⟩
    intro ref entry home seen located
    rw [homes] at located
    rw [views, Option.map_eq_some_iff] at seen
    obtain ⟨old, found, rfl⟩ := seen
    refine simulates.kept roomy.sound found located (before.saved_physicalPage old) ?_
    intro number _
    rw [Kernel.frame, storage.memory]
    rfl
  | @load thread addr size slot cached number value running hit decoded =>
    rw [hit.observe_load running decoded]
    exact ⟨⟨simulates.loaded roomy running hit decoded, trivial⟩, simulates⟩
  | @store thread addr size value slot cached number bytes running hit encoded =>
    rw [hit.observe_store running encoded]
    exact ⟨⟨trivial, trivial⟩, simulates.stored roomy running hit encoded rfl rfl⟩
  | fault running reference missed located faulted =>
    rw [missed.observe reference]
    exact ⟨trivial, simulates.faulted roomy running reference missed allowed located faulted⟩

end Simulation

section Progress

variable {kernel : Kernel} {thread : Thread} {space : AddrSpace} {addr : BitVec 32} {size : Nat}
  {action : Action}

/-- A reference to a page that a valid slot holds completes. -/
theorem Sound.completes (sound : Sound kernel)
    (reference : action.reference = some (addr, size)) (aligned : misaligned addr size = false)
    (sized : size = 1 ∨ size = 2 ∨ size = 4)
    (held : ∃ cached ∈ kernel.tlb, cached.valid = true ∧
      cached.virtualPage = virtualPageNumber addr) : kernel.completes action = true := by
  obtain ⟨slot, found⟩ : ∃ slot,
      findEntry (.tlb kernel.tlb) (virtualPageNumber addr) = .ok slot := by
    cases search : findEntry (.tlb kernel.tlb) (virtualPageNumber addr) with
    | ok slot => exact ⟨slot, rfl⟩
    | error trap =>
      obtain ⟨cached, member, valid, named⟩ := held
      exact absurd named ((findEntry_tlb_error.mp search).2 cached member valid)
  obtain ⟨cached, located, valid, -⟩ := findEntry_tlb_ok found
  obtain ⟨open_, number, framed, inside⟩ :=
    sound.cached cached (List.mem_of_getElem? located) valid
  have hit : ∀ writing, translate (.tlb kernel.tlb) addr size writing =
      .ok (number * pageSize + pageOffset addr,
        .tlb (kernel.tlb.modify slot (·.touch writing))) := fun writing =>
    translate_of_translated ⟨aligned, found, located, by simp [open_], framed, inside⟩ sized
  cases action with
  | load addr' size' =>
    obtain ⟨rfl, rfl⟩ : addr' = addr ∧ size' = size := by simpa [Action.reference] using reference
    have lengths : ∀ address, (Blocks.cells kernel.mainMemory address size').length = 1 ∨
        (Blocks.cells kernel.mainMemory address size').length = 2 ∨
        (Blocks.cells kernel.mainMemory address size').length = 4 := by simpa using sized
    obtain ⟨value, decoded⟩ := decodeBytes_isSome (lengths (number * pageSize + pageOffset addr'))
    simp [Kernel.completes, readMem, hit, decoded, Except.isOk, Except.toBool]
  | store addr' size' value =>
    obtain ⟨rfl, rfl⟩ : addr' = addr ∧ size' = size := by simpa [Action.reference] using reference
    obtain ⟨bytes, encoded⟩ := encodeBytes_isSome value sized
    simp [Kernel.completes, writeMem, hit, encoded, Except.isOk, Except.toBool]
  | exec | fork | exit | switchTo => simp [Action.reference] at reference

/-- Bringing in a page of the address space succeeds while `Find` and `ReadAt` do. -/
theorem Kernel.bringIn_ends (before : Kernel) {file : Executable} {page : PageRef}
    {entry : TranslationEntry} {contents : Page}
    (found : before.invertedTable.entry page = some entry)
    (unstored : entry.physicalPage = noPhysicalPage → fromStore entry = false ∧
      before.physicalPageMap.find ≠ none) (read : readPage file page.page = .ok contents) :
    ∃ after, before.bringIn page file = .ok after ∧
      (after.invertedTable.entry page).isSome = true := by
  simp only [bringIn, InvertedTable.deref, found, Bind.bind, Except.bind]
  split
  · rename_i absent
    obtain ⟨unsaved, free⟩ := unstored absent
    obtain ⟨⟨number, map⟩, some_⟩ := Option.ne_none_iff_exists'.mp free
    simp only [unsaved, loadPage, availablePage, findPage, some_, read, Bind.bind, Except.bind,
      Pure.pure, Except.pure, Bool.false_eq_true, if_false]
    refine ⟨_, rfl, ?_⟩
    simp [InvertedTable.entry_modifyEntry, found]
  · exact ⟨before, rfl, by simp [found]⟩

/-- The handler returns for every page of the address space while `Find` and `ReadAt` succeed. -/
theorem Roomy.pageFaultException_ends (roomy : Roomy kernel)
    (running : kernel.currentThread = some thread)
    (found : kernel.invertedTable.get? thread = some space)
    (inside : virtualPageNumber addr < space.pageTable.length)
    (reference : action.reference = some (addr, size)) (missed : Missed kernel addr size)
    (allowed : FindSucceeds kernel action)
    (readable : ∃ contents, readPage space.file (virtualPageNumber addr) = .ok contents) :
    ∃ after, kernel.pageFaultException thread addr = .ok after := by
  have sound := roomy.sound
  obtain ⟨searched, slot, search⟩ := sound.search
  obtain ⟨registered, found', sameFile⟩ := Kernel.get?_updataPageTables found
  obtain ⟨contents, read⟩ := readable
  have entry : kernel.invertedTable.entry ⟨thread, virtualPageNumber addr⟩ =
      some space.pageTable[virtualPageNumber addr] := by
    simp [InvertedTable.entry, found]
  have synced : kernel.updataPageTables.invertedTable.entry ⟨thread, virtualPageNumber addr⟩ =
      some (syncAll kernel.tlb space.pageTable[virtualPageNumber addr]) := by
    rw [Kernel.entry_updataPageTables, entry]
    rfl
  -- A page out of memory is invalid here, so the handler goes to the executable and to `Find`.
  have unstored : (syncAll kernel.tlb space.pageTable[virtualPageNumber addr]).physicalPage =
      noPhysicalPage → fromStore (syncAll kernel.tlb space.pageTable[virtualPageNumber addr]) =
        false ∧ kernel.updataPageTables.physicalPageMap.find ≠ none := by
    intro absent
    have unsaved : fromStore (syncAll kernel.tlb space.pageTable[virtualPageNumber addr]) =
        false := by
      have gone := absent
      rw [syncAll_physicalPage] at gone
      have invalid := roomy.unloaded _ _ (view_of_entry entry) gone
      cases valid : (syncAll kernel.tlb space.pageTable[virtualPageNumber addr]).valid with
      | false => simp [fromStore, valid]
      | true =>
        rw [sound.syncAll_absent gone valid, ← clearUse_valid, invalid] at valid
        exact absurd valid (by simp)
    refine ⟨unsaved, ?_⟩
    intro full
    have full' : kernel.physicalPageMap.find = none := full
    simp only [FindSucceeds, Kernel.findFails, missed.faultingEntry running reference, synced,
      absent, unsaved, full'] at allowed
    simp at allowed
  rw [← sameFile] at read
  obtain ⟨brought, bringing, still⟩ := Kernel.bringIn_ends
    { kernel.updataPageTables with tlb := searched, tlbIndex := (slot + 1) % tlbSize }
    synced unstored read
  obtain ⟨cached, there⟩ := Option.isSome_iff_exists.mp still
  rw [Kernel.pageFaultException_eq search found']
  refine ⟨_, Runs.bind_eq_ok.mpr ⟨brought, bringing, Runs.bind_eq_ok.mpr ⟨referenced cached, ?_, rfl⟩⟩⟩
  simp [InvertedTable.deref, InvertedTable.entry_modifyEntry, there]

/-- A reference inside the address space completes, at once or after one page fault. -/
theorem Roomy.completes (roomy : Roomy kernel) (running : kernel.currentThread = some thread)
    (found : kernel.invertedTable.get? thread = some space)
    (inside : virtualPageNumber addr < space.pageTable.length)
    (reference : action.reference = some (addr, size)) (aligned : misaligned addr size = false)
    (sized : size = 1 ∨ size = 2 ∨ size = 4) (allowed : FindSucceeds kernel action)
    (readable : ∃ contents, readPage space.file (virtualPageNumber addr) = .ok contents) :
    kernel.completes action = true ∨
      ∃ after, step kernel action = .ok after ∧ after.completes action = true := by
  by_cases held : ∃ cached ∈ kernel.tlb, cached.valid = true ∧
      cached.virtualPage = virtualPageNumber addr
  · exact .inl (roomy.sound.completes reference aligned sized held)
  · right
    have missed : Missed kernel addr size :=
      ⟨aligned, fun cached member valid named => held ⟨cached, member, valid, named⟩⟩
    obtain ⟨after, handled⟩ := roomy.pageFaultException_ends running found inside reference missed
      allowed readable
    have fault : ∀ writing, translate (.tlb kernel.tlb) addr size writing =
        .error (.exception .pageFault) := fun writing =>
      translate_tlb_pageFault.mpr ⟨missed.aligned, missed.missed⟩
    have done : step kernel action = .ok after := by
      cases action with
      | load addr' size' =>
        obtain ⟨rfl, rfl⟩ : addr' = addr ∧ size' = size := by
          simpa [Action.reference] using reference
        simp only [step, running, readMem_pageFault.mpr (fault false), Kernel.raise, handled]
      | store addr' size' value =>
        obtain ⟨rfl, rfl⟩ : addr' = addr ∧ size' = size := by
          simpa [Action.reference] using reference
        simp only [step, running, writeMem_pageFault.mpr (fault true), Kernel.raise, handled]
      | exec | fork | exit | switchTo => simp [Action.reference] at reference
    obtain ⟨home, slot, number, origin, -, faulted⟩ :=
      Kernel.pageFaultException_spec roomy.sound.ready handled
    refine ⟨after, done, ?_⟩
    have sound := roomy.sound.faulted running faulted
    refine sound.completes reference aligned sized ?_
    -- The replaced slot holds the page now.
    obtain ⟨searched, loaded, search, tlb, -⟩ := faulted.tlb
    obtain ⟨same, within⟩ := secondChanceTlb_spec search
    have located : after.tlb[slot]? = some loaded := by
      rw [tlb, List.getElem?_set_self (by rw [same.length]; exact within)]
    obtain ⟨named, -, valid⟩ := faulted.new_slot roomy.sound located
    exact ⟨loaded, List.mem_of_getElem? located, valid, named⟩

end Progress

/--
While `Find` never fails, the virtual memory system refines flat memories.

The loads and stores that programs complete are those of one flat memory for each address space, and
every reference inside an address space completes after at most one page fault, if `ReadAt` returns
its page of the executable.
-/
theorem refines_flat_memory {kernel : Kernel} {history : List Event}
    (traced : Runs.Traced step Boot FindSucceeds observe kernel history) :
    Consistent (fun _ _ => 0) history ∧
      ∀ thread space action addr size, kernel.currentThread = some thread →
        kernel.invertedTable.get? thread = some space →
        action.reference = some (addr, size) →
        virtualPageNumber addr < space.pageTable.length → misaligned addr size = false →
        (size = 1 ∨ size = 2 ∨ size = 4) → FindSucceeds kernel action →
        (∃ contents, readPage space.file (virtualPageNumber addr) = .ok contents) →
        kernel.completes action = true ∨
          ∃ after, step kernel action = .ok after ∧ after.completes action = true := by
  have all : Roomy kernel ∧ Simulates kernel (flat history) ∧
      Consistent (fun _ _ => 0) history := by
    refine traced.invariant (fun kernel history => Roomy kernel ∧ Simulates kernel (flat history) ∧
      Consistent (fun _ _ => 0) history) ?_ ?_
    · intro kernel boot
      refine ⟨boot.roomy, ?_, trivial⟩
      intro ref entry home seen
      simp [boot.noSpaces, InvertedTable.view_eq] at seen
    · rintro before action after history ⟨roomy, simulates, consistent⟩ allowed done
      obtain ⟨stepped, -⟩ := roomy.sound.step done
      obtain ⟨agrees, simulates'⟩ := simulates.stepped roomy allowed stepped
      refine ⟨roomy.stepped allowed stepped, ?_, Runs.accepts_append.mpr ⟨consistent, agrees⟩⟩
      rw [flat_append]
      exact simulates'
  obtain ⟨roomy, -, consistent⟩ := all
  refine ⟨consistent, ?_⟩
  intro thread space action addr size running found reference inside aligned sized allowed readable
  exact roomy.completes running found inside reference aligned sized allowed readable

/-- Thread 1 stores a word, thread 2 runs the same program, and thread 1 loads its word again. -/
def storeAndLoad : List Action :=
  [.exec 1 wideProgram 1000, .store 256#32 4 7#32, .store 256#32 4 7#32,
    .exec 2 wideProgram 2000, .store 256#32 4 9#32, .store 256#32 4 9#32,
    .switchTo 1, .load 256#32 4, .load 256#32 4]

/-- The two threads see flat memories of their own, and thread 1 can go on to its next page. -/
theorem refines_flat_memory_storeAndLoad :
    ∃ kernel, Runs.run step firstKernel storeAndLoad = .ok kernel ∧
      Consistent (fun _ _ => 0) (Runs.record step observe firstKernel storeAndLoad) ∧
      (kernel.completes (.load 384#32 4) = true ∨ ∃ after,
        step kernel (.load 384#32 4) = .ok after ∧ after.completes (.load 384#32 4) = true) := by
  obtain ⟨kernel, ran, seen⟩ := Runs.exists_of_runsTo
    (show Runs.runsTo step firstKernel storeAndLoad (fun kernel =>
      kernel.currentThread == some 1 && !kernel.findFails (.load 384#32 4) &&
        (kernel.invertedTable.get? 1).any fun space => space.pageTable.length == 33 &&
          (readPage space.file 3).isOk) = true by
      decide +kernel)
  simp only [Bool.and_eq_true, beq_iff_eq, Option.any_eq_true, Bool.not_eq_true'] at seen
  obtain ⟨⟨current, succeeds⟩, space, found, pages, read⟩ := seen
  -- The address of the last load lies on page 3, which the handler reads from the executable.
  have readable : ∃ contents, readPage space.file 3 = .ok contents := by
    cases shape : readPage space.file 3 with
    | ok contents => exact ⟨contents, rfl⟩
    | error fault => rw [shape] at read; cases read
  have guarded : Runs.Guarded step FindSucceeds firstKernel storeAndLoad := by decide +kernel
  obtain ⟨consistent, completes⟩ := refines_flat_memory
    (Runs.Traced.extend (.start firstKernel_boot) guarded ran)
  refine ⟨kernel, ran, consistent, ?_⟩
  exact completes 1 space (.load 384#32 4) 384#32 4 current found rfl (by rw [pages]; decide)
    (by decide) (by decide) succeeds readable

end Nachos.Vm
