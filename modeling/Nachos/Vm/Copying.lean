import Nachos.Userprog.Copying
import Nachos.Vm.Refinement

/-! The bytes of the running program in the paged build, and what both builds copy. -/

namespace Nachos.Vm

/-- `while (!machine->ReadMem(addr, 1, &value));`, cut off after so many turns. -/
def Kernel.loadByte : Nat → Kernel → BitVec 32 → Except Fault (BitVec 32 × Kernel)
  | 0, _, _ => .error .diverges
  | fuel + 1, kernel, addr =>
    match kernel.currentThread with
    | none => .error .disabled
    | some thread =>
      match readMem (.tlb kernel.tlb) kernel.mainMemory addr 1 with
      | .error trap => do loadByte fuel (← kernel.raise thread addr trap) addr
      | .ok (value, table) => .ok (value, kernel.withTable table)

/-- `while (!machine->WriteMem(addr, 1, value));`, cut off after so many turns. -/
def Kernel.storeByte : Nat → Kernel → BitVec 32 → BitVec 32 → Except Fault Kernel
  | 0, _, _, _ => .error .diverges
  | fuel + 1, kernel, addr, value =>
    match kernel.currentThread with
    | none => .error .disabled
    | some thread =>
      -- A page fault is handled by the kernel itself, and the reference is made again.
      match writeMem (.tlb kernel.tlb) kernel.mainMemory addr 1 value with
      | .error trap => do storeByte fuel (← kernel.raise thread addr trap) addr value
      | .ok (memory, table) => .ok { kernel.withTable table with mainMemory := memory }

/-- In the paged build a reference is repeated when its page fault has been handled. -/
def userBytes (fuel : Nat) : UserBytes Kernel := ⟨Kernel.loadByte fuel, Kernel.storeByte fuel⟩

/-- The memory of every thread, wherever its pages are. -/
def Kernel.memories (kernel : Kernel) (thread : Thread) : Memory := fun address =>
  match kernel.invertedTable.home thread, kernel.invertedTable.view ⟨thread, address / pageSize⟩ with
  -- An address belongs to a page, and the page is in its frame or in the store.
  | some home, some entry =>
    kernel.contents home.2 (address / pageSize) entry ⟨address % pageSize, Nat.mod_lt _ (by decide)⟩
  | _, _ => 0

/-- The byte the running program sees at an address. -/
def Kernel.byteAt (kernel : Kernel) (address : Nat) : Option Byte :=
  kernel.currentThread.bind fun thread =>
    (kernel.invertedTable.view ⟨thread, address / pageSize⟩).map fun _ =>
      kernel.memories thread address

/-- There is a clear frame for every one of some pages of the thread that is not in memory. -/
def Kernel.Spacious (kernel : Kernel) (thread : Thread) (reach : Nat → Prop) : Prop :=
  ∀ pages : List Nat, pages.Nodup →
    (∀ page ∈ pages, reach page ∧
      kernel.invertedTable.frameOf ⟨thread, page⟩ = some noPhysicalPage) →
    pages.length ≤ kernel.physicalPageMap.numClear

/-- `ReadAt` returns these pages of the executable of a thread. -/
def Kernel.Readable (kernel : Kernel) (thread : Thread) (reach : Nat → Prop) : Prop :=
  ∀ home, kernel.invertedTable.home thread = some home →
    ∀ page, reach page → ∃ contents, readPage home.2 page = .ok contents

/-- A thread runs, in a kernel that never has to take a frame from another page for these pages. -/
structure AtEase (kernel : Kernel) (thread : Thread) (reach : Nat → Prop) : Prop where
  roomy : Roomy kernel
  running : kernel.currentThread = some thread
  spacious : kernel.Spacious thread reach
  readable : kernel.Readable thread reach

/-- A page on which one of so many bytes from an address on lies. -/
def pagesOf (addr : BitVec 32) (count page : Nat) : Prop :=
  ∃ offset, offset < count ∧ (addr.toNat + offset) / pageSize = page

section

variable {kernel before after : Kernel} {thread : Thread} {addr : BitVec 32} {reach : Nat → Prop}

/-- The memories a kernel holds are those it simulates. -/
theorem simulates_memories (kernel : Kernel) : Simulates kernel kernel.memories := by
  intro ref entry home seen located
  funext offset
  -- The address of an offset in a page has this page and this offset.
  have page := Blocks.address_div ref.page offset
  have rest : (ref.page * pageSize + offset) % pageSize = offset := by
    rw [Nat.mul_comm, Nat.mul_add_mod, Nat.mod_eq_of_lt offset.isLt]
  simp only [Blocks.block, Kernel.memories, page, rest, located]
  rw [show kernel.invertedTable.view ⟨ref.thread, ref.page⟩ = some entry from seen]

/-- Memories that are simulated are those the kernel holds, on the pages there are. -/
theorem Simulates.byteAt {memories : Thread → Memory} (simulates : Simulates kernel memories)
    (running : kernel.currentThread = some thread) (address : Nat) :
    kernel.byteAt address =
      (kernel.invertedTable.view ⟨thread, address / pageSize⟩).map fun _ =>
        memories thread address := by
  rw [Kernel.byteAt, running, Option.bind_some]
  cases seen : kernel.invertedTable.view ⟨thread, address / pageSize⟩ with
  | none => rfl
  | some entry =>
    obtain ⟨space, found, -⟩ := InvertedTable.entryAddress_of_view seen
    have located : kernel.invertedTable.home thread = some (space.address, space.file) := by
      rw [InvertedTable.home, found]
      rfl
    have mine := simulates_memories kernel ⟨thread, address / pageSize⟩ entry _ seen located
    have theirs := simulates ⟨thread, address / pageSize⟩ entry _ seen located
    -- Both memories agree with the kernel on the whole page, so also at this offset.
    rw [Option.map_some, Option.map_some, @Blocks.eq_block Byte pageSize _ (kernel.memories thread),
      @Blocks.eq_block Byte pageSize _ (memories thread), mine, theirs]

/-- No page fault on one of the pages makes `Find` fail. -/
theorem AtEase.findSucceeds {action : Action} {size : Nat} (ease : AtEase kernel thread reach)
    (reference : action.reference = some (addr, size)) (reached : reach (virtualPageNumber addr)) :
    FindSucceeds kernel action := by
  unfold FindSucceeds
  by_contra fails
  rw [Bool.not_eq_false] at fails
  -- Only a reference that misses asks for a frame.
  by_cases missed : translate (.tlb kernel.tlb) addr size false = .error (.exception .pageFault)
  · obtain ⟨aligned, missed⟩ := translate_tlb_pageFault.mp missed
    have entry := Missed.faultingEntry ease.running reference ⟨aligned, missed⟩
    rw [Kernel.findFails, entry, Kernel.entry_updataPageTables] at fails
    cases found : kernel.invertedTable.entry ⟨thread, virtualPageNumber addr⟩ with
    | none => simp [found] at fails
    | some entry =>
      -- The page has no frame, so a clear one is left for it.
      simp only [found, Option.map_some, Bool.and_eq_true, beq_iff_eq, syncAll_physicalPage,
        Option.isNone_iff_eq_none] at fails
      have room := ease.spacious [virtualPageNumber addr] (List.nodup_singleton _) (by
        intro page member
        rw [List.mem_singleton.mp member, InvertedTable.frameOf, found, Option.map_some,
          fails.1.1]
        exact ⟨reached, rfl⟩)
      obtain ⟨number, map, some, -⟩ := BitMap.exists_find room
      rw [some] at fails
      simp at fails
  · -- A reference that hits asks for nothing.
    have none : kernel.faultingEntry action = none := by
      simp only [Kernel.faultingEntry, ease.running, reference]
    simp [Kernel.findFails, none] at fails

/-- A page fault on one of the pages leaves the thread at ease, with the same memory. -/
theorem AtEase.faulted {action : Action} {size : Nat} (ease : AtEase before thread reach)
    (reference : action.reference = some (addr, size)) (reached : reach (virtualPageNumber addr))
    (missed : Missed before addr size) (done : step before action = .ok after) :
    AtEase after thread reach ∧ after.byteAt = before.byteAt := by
  have allowed := ease.findSucceeds reference reached
  obtain ⟨stepped, -⟩ := ease.roomy.sound.step done
  have roomy := ease.roomy.stepped allowed stepped
  cases stepped with
  | exec | fork | exit | switchTo => simp [Action.reference] at reference
  -- A reference that misses is neither a load nor a store that goes through.
  | load _ hit _ =>
    obtain ⟨rfl, rfl⟩ := by simpa [Action.reference] using reference
    exact absurd hit.named
      (missed.missed _ (List.mem_of_getElem? hit.located) hit.valid)
  | store _ hit _ =>
    obtain ⟨rfl, rfl⟩ := by simpa [Action.reference] using reference
    exact absurd hit.named
      (missed.missed _ (List.mem_of_getElem? hit.located) hit.valid)
  | @fault _ _ _ _ home slot number origin _ running reference' _ located faulted =>
    rw [ease.running, Option.some.injEq] at running
    subst running
    rw [reference, Option.some.injEq, Prod.mk.injEq] at reference'
    obtain ⟨rfl, rfl⟩ := reference'
    -- The fault changes neither the thread that runs nor what its pages hold.
    have current : after.currentThread = some thread := by rw [faulted.currentThread, ease.running]
    have simulates := (simulates_memories before).faulted ease.roomy ease.running reference missed
      allowed located faulted
    -- The handler loads pages from the same executable as before.
    have readable : after.Readable thread reach := fun home there =>
      ease.readable home (by rw [← faulted.homes, there])
    refine ⟨⟨roomy, current, ?_, readable⟩, ?_⟩
    · intro pages distinct absent
      -- `Find` has succeeded, so the page was in memory or gets a clear frame.
      rcases ease.roomy.found_or_free ease.running reference missed faulted allowed with rfl | rfl
      · -- The page was in memory, so no frame is taken.
        rw [faulted.map, Origin.map]
        refine ease.spacious pages distinct fun page member => ?_
        rw [← faulted.frameOf_resident]
        exact absent page member
      · -- The page that gets a clear frame was not in memory, and is now.
        obtain ⟨entry, seen, reason⟩ := faulted.justified
        have apart : ∀ page ∈ pages, page ≠ virtualPageNumber addr := by
          rintro page member rfl
          have framed := (absent _ member).2
          rw [faulted.frameOf, if_pos rfl, Option.some.injEq] at framed
          exact natCast_ne_noPhysicalPage number framed
        -- Together with these pages, the page of the fault needed frames before.
        have counted := ease.spacious (virtualPageNumber addr :: pages)
          (List.nodup_cons.mpr ⟨fun member => apart _ member rfl, distinct⟩) (by
            intro page member
            rcases List.mem_cons.mp member with rfl | later
            · rw [InvertedTable.frameOf_eq, seen, Option.map_some, ← reason.1]
              exact ⟨reached, by simp⟩
            · have kept := absent page later
              rwa [faulted.frameOf, if_neg (by simpa using apart page later), if_neg (by
                simp [Origin.victim])] at kept)
        have bits := ease.roomy.sound.bits
        -- One frame less is clear, and one page less needs one.
        have marked := BitMap.numClear_markBit (by rw [bits]; exact faulted.inside) reason.2.2.1
        rw [faulted.map, Origin.map]
        rw [List.length_cons] at counted
        omega
    · -- The same pages are there, with the contents they had.
      funext address
      rw [simulates.byteAt current, (simulates_memories before).byteAt ease.running, faulted.views,
        Option.map_map]
      rfl

/-- A byte that is seen is in a page of the thread. -/
theorem AtEase.of_byteAt (ease : AtEase kernel thread reach) {byte : Byte}
    (seen : kernel.byteAt addr.toNat = some byte) : kernel.memories thread addr.toNat = byte ∧
      ∃ space, kernel.invertedTable.get? thread = some space ∧
        virtualPageNumber addr < space.pageTable.length := by
  rw [Kernel.byteAt, ease.running, Option.bind_some, Option.map_eq_some_iff] at seen
  -- A view of a page comes from an entry of the page table.
  obtain ⟨entry, shown, held⟩ := seen
  obtain ⟨space, found, -⟩ := InvertedTable.entryAddress_of_view shown
  refine ⟨held, space, found, ?_⟩
  rw [InvertedTable.view_of_get? found, Option.map_eq_some_iff] at shown
  obtain ⟨entry, located, -⟩ := shown
  exact (List.getElem?_eq_some_iff.mp located).1

/-- A load of a byte that completes reads what the program sees. -/
theorem AtEase.loadByte_hit (ease : AtEase kernel thread reach) {byte : Byte} (fuel : Nat)
    (reached : reach (virtualPageNumber addr)) (seen : kernel.byteAt addr.toNat = some byte)
    (completes : kernel.completes (.load addr 1) = true) :
    ∃ after, kernel.loadByte (fuel + 1) addr = .ok (byte.signExtend 32, after) ∧
      AtEase after thread reach ∧ after.byteAt = kernel.byteAt := by
  rw [Kernel.completes] at completes
  cases read : readMem (.tlb kernel.tlb) kernel.mainMemory addr 1 with
  | error trap => simp [read, Except.isOk, Except.toBool] at completes
  | ok result =>
    obtain ⟨value, table⟩ := result
    -- The reference hits a TLB slot, and reads the byte behind it.
    obtain ⟨physAddr, translated, decoded⟩ := readMem_ok read
    obtain ⟨slot, cached, number, hit, rfl, rfl⟩ := Hit.of_translate translated
    have allowed : FindSucceeds kernel (.load addr 1) := ease.findSucceeds rfl reached
    have roomy := ease.roomy.stepped allowed (.load ease.running hit decoded)
    have held := (simulates_memories kernel).loaded ease.roomy ease.running hit decoded
    -- One byte of the simulated memory is the byte that is seen.
    have one : Blocks.cells (kernel.memories thread) addr.toNat 1 = [byte] := by
      rw [← (ease.of_byteAt seen).1]
      rfl
    rw [one, decodeBytes, Option.some.injEq] at held
    refine ⟨kernel.withTable (.tlb (kernel.tlb.modify slot (·.touch false))), ?_,
      ⟨roomy, ease.running, ease.spacious, ease.readable⟩, rfl⟩
    simp only [Kernel.loadByte, ease.running, read, held]

/-- A store of a byte that completes changes what the program sees at its address. -/
theorem AtEase.storeByte_hit (ease : AtEase kernel thread reach) {old : Byte} (value : BitVec 32)
    (fuel : Nat) (reached : reach (virtualPageNumber addr))
    (seen : kernel.byteAt addr.toNat = some old)
    (completes : kernel.completes (.store addr 1 value) = true) :
    ∃ after, kernel.storeByte (fuel + 1) addr value = .ok after ∧ AtEase after thread reach ∧
      after.byteAt = Blocks.setCells kernel.byteAt addr.toNat [some (value.setWidth 8)] := by
  rw [Kernel.completes] at completes
  cases written : writeMem (.tlb kernel.tlb) kernel.mainMemory addr 1 value with
  | error trap => simp [written, Except.isOk, Except.toBool] at completes
  | ok result =>
    obtain ⟨memory, table⟩ := result
    -- The reference hits a TLB slot, and writes the byte behind it.
    obtain ⟨physAddr, bytes, translated, encoded, rfl⟩ := writeMem_ok written
    obtain ⟨slot, cached, number, hit, rfl, rfl⟩ := Hit.of_translate translated
    have allowed : FindSucceeds kernel (.store addr 1 value) := ease.findSucceeds rfl reached
    have roomy := ease.roomy.stepped allowed (.store ease.running hit encoded)
    -- Only the low byte of the value is stored.
    have low : bytes = [value.setWidth 8] := by
      rw [encodeBytes, Option.some.injEq] at encoded
      rw [← encoded, List.cons.injEq]
      exact ⟨BitVec.eq_of_toNat_eq (by simp), rfl⟩
    subst low
    let after : Kernel := { kernel.withTable (.tlb (kernel.tlb.modify slot (·.touch true))) with
      mainMemory := Blocks.setCells kernel.mainMemory (number * pageSize + pageOffset addr)
        [value.setWidth 8] }
    have simulates : Simulates after _ :=
      (simulates_memories kernel).stored ease.roomy ease.running hit encoded rfl rfl
    refine ⟨after, by simp only [Kernel.storeByte, ease.running, written, after],
      ⟨roomy, ease.running, ease.spacious, ease.readable⟩, ?_⟩
    -- The memories differ at the address only, so the views do as well.
    funext address
    rw [simulates.byteAt ease.running, Blocks.setCells_singleton,
      (simulates_memories kernel).byteAt ease.running]
    simp only [Event.apply, if_true, Blocks.setCells_singleton]
    by_cases here : address = addr.toNat
    · subst here
      -- At the address there is a page, so the new byte is seen there.
      rw [Kernel.byteAt, ease.running, Option.bind_some, Option.map_eq_some_iff] at seen
      obtain ⟨entry, shown, -⟩ := seen
      have shown' : after.invertedTable.view ⟨thread, addr.toNat / pageSize⟩ = some entry := shown
      rw [if_pos rfl, if_pos rfl, shown']
      rfl
    · rw [if_neg here, if_neg here]
      rfl

/-- A reference to one of the pages that does not complete completes after a page fault. -/
theorem AtEase.retried {action : Action} (ease : AtEase kernel thread reach) {byte : Byte}
    (reference : action.reference = some (addr, 1)) (reached : reach (virtualPageNumber addr))
    (seen : kernel.byteAt addr.toNat = some byte) (misses : ¬ kernel.completes action = true) :
    ∃ after, step kernel action = .ok after ∧ after.completes action = true ∧
      AtEase after thread reach ∧ after.byteAt = kernel.byteAt := by
  obtain ⟨-, space, found, inside⟩ := ease.of_byteAt seen
  have aligned : misaligned addr 1 = false := by simp [misaligned]
  have allowed := ease.findSucceeds reference reached
  -- The page can be read, should the fault have to load it from the executable.
  have readable := ease.readable (space.address, space.file)
    (by rw [InvertedTable.home, found]; rfl) _ reached
  -- One fault is enough, since the page gets a frame and the handler puts it into the TLB.
  obtain ⟨after, done, completes⟩ := (ease.roomy.completes ease.running found inside reference
    aligned (.inl rfl) allowed readable).resolve_left misses
  -- A valid slot for the page would have let the reference complete.
  have missed : Missed kernel addr 1 := by
    refine ⟨aligned, fun cached member valid named => misses ?_⟩
    exact ease.roomy.sound.completes reference aligned (.inl rfl) ⟨cached, member, valid, named⟩
  obtain ⟨ease', same⟩ := ease.faulted reference reached missed done
  exact ⟨after, done, completes, ease', same⟩

/-- In the paged build the kernel reaches the bytes that the running program sees on the pages. -/
theorem userBytes_lawful (thread : Thread) (reach : Nat → Prop) (fuel : Nat) :
    (userBytes (fuel + 2)).Lawful (AtEase · thread reach)
      (fun address => reach (address / pageSize)) Kernel.byteAt := by
  refine ⟨?_, ?_⟩
  · -- Reading: the reference completes at once, or after one fault.
    intro kernel addr byte ease reached seen
    by_cases completes : kernel.completes (.load addr 1) = true
    · exact ease.loadByte_hit (fuel + 1) reached seen completes
    · obtain ⟨middle, done, completes', ease', same⟩ := ease.retried rfl reached seen completes
      obtain ⟨after, loaded, ease'', same'⟩ :=
        ease'.loadByte_hit fuel reached (same ▸ seen) completes'
      refine ⟨after, ?_, ease'', same'.trans same⟩
      -- It did not complete, so the first turn raises the fault and the second one reads.
      cases read : readMem (.tlb kernel.tlb) kernel.mainMemory addr 1 with
      | ok result => simp [Kernel.completes, read, Except.isOk, Except.toBool] at completes
      | error trap =>
        simp only [step, ease.running, read] at done
        simp only [userBytes, Kernel.loadByte, ease.running, read, done]
        exact loaded
  · -- Writing goes the same way.
    intro kernel addr old value ease reached seen
    by_cases completes : kernel.completes (.store addr 1 value) = true
    · exact ease.storeByte_hit value (fuel + 1) reached seen completes
    · obtain ⟨middle, done, completes', ease', same⟩ := ease.retried rfl reached seen completes
      obtain ⟨after, stored, ease'', same'⟩ :=
        ease'.storeByte_hit value fuel reached (same ▸ seen) completes'
      refine ⟨after, ?_, ease'', by rw [same', same]⟩
      cases written : writeMem (.tlb kernel.tlb) kernel.mainMemory addr 1 value with
      | ok result => simp [Kernel.completes, written, Except.isOk, Except.toBool] at completes
      | error trap =>
        simp only [step, ease.running, written] at done
        simp only [userBytes, Kernel.storeByte, ease.running, written, done]
        exact stored

/-- A program that was just loaded runs at ease if it fits into the clear frames. -/
theorem atEase_of_exec {file : Executable} {address : Nat} (roomy : Roomy before)
    (room : file.numPages ≤ before.physicalPageMap.numClear)
    (readable : ∀ page, reach page → ∃ contents, readPage file page = .ok contents)
    (done : step before (.exec thread file address) = .ok after) :
    AtEase after thread reach ∧ ∀ address, address < file.numPages * pageSize →
      (after.byteAt address).isSome = true := by
  -- Loading a program refers to no page, so `Find` is not asked.
  have allowed : FindSucceeds before (.exec thread file address) := by
    have silent : before.faultingEntry (.exec thread file address) = none :=
      before.faultingEntry_silent rfl
    simp [FindSucceeds, Kernel.findFails, silent]
  obtain ⟨stepped, -⟩ := roomy.sound.step done
  have roomy' := roomy.stepped allowed stepped
  cases stepped with
  | exec magic created tlb running storage =>
    -- The pages of the thread are fresh, and none of them has a frame.
    have views (page : Nat) : after.invertedTable.view ⟨thread, page⟩ =
        if page < file.numPages then some (freshEntry page false) else none := by
      rw [created.views, if_pos rfl]
    refine ⟨⟨roomy', running, ?_, ?_⟩, ?_⟩
    · -- The pages without a frame are pages of the program, and there is a clear frame for each.
      intro pages distinct absent
      rw [storage.map]
      refine Nat.le_trans ?_ room
      have inside : pages ⊆ List.range file.numPages := by
        intro page member
        have framed := (absent page member).2
        rw [InvertedTable.frameOf_eq, views] at framed
        split at framed
        · rename_i small
          exact List.mem_range.mpr small
        · cases framed
      simpa using distinct.length_le_of_subset inside
    · -- The thread runs the program that was loaded.
      intro home there
      rw [created.homes, if_pos rfl, Option.some.injEq] at there
      rw [← there]
      exact readable
    · -- Every address of the program lies on one of its pages.
      intro place small
      have page : place / pageSize < file.numPages :=
        Nat.div_lt_of_lt_mul (by rwa [Nat.mul_comm] at small)
      rw [Kernel.byteAt, running, Option.bind_some, views, if_pos page]
      rfl
  | fault _ reference => simp [Action.reference] at reference

end

/--
Bytes are copied out and in again unchanged exactly when only zeros follow their first zero.

This holds in the linear build for every program whose pages have frames of their own, and in the
paged build, as long as no `Find` has failed, for every range whose pages have frames or can be
given clear ones. The program sees the bytes that were copied out, and every other byte as before.
-/
theorem copiesBack_iff (addr : BitVec 32) (bytes : List Byte) :
    (∀ kernel, Userprog.AtEase kernel →
      (∀ offset, offset < bytes.length →
        (Userprog.Kernel.byteAt kernel (addr.toNat + offset)).isSome = true) →
      (UserBytes.CopiesBack Userprog.userBytes Userprog.Kernel.byteAt kernel addr bytes ↔
        ∀ byte ∈ bytes.dropWhile (· ≠ 0), byte = 0)) ∧
    ∀ kernel thread fuel, AtEase kernel thread (pagesOf addr bytes.length) →
      (∀ offset, offset < bytes.length →
        (kernel.byteAt (addr.toNat + offset)).isSome = true) →
      UserBytes.Spans addr bytes.length →
      (UserBytes.CopiesBack (userBytes (fuel + 2)) Kernel.byteAt kernel addr bytes ↔
        ∀ byte ∈ bytes.dropWhile (· ≠ 0), byte = 0) := by
  refine ⟨fun kernel ease mapped => ?_, fun kernel thread fuel ease mapped spans => ?_⟩
  · -- In the linear build memory is small, so no address that is seen wraps around.
    refine Userprog.userBytes_lawful.copiesBack_exact ease (fun _ _ => trivial) mapped fun some =>
      UserBytes.spans_of_lt ?_
    have positive := List.length_pos_iff.mpr some
    have last := ease.address_lt (mapped (bytes.length - 1) (by omega))
    have size : memorySize = 4096 := rfl
    omega
  · exact (userBytes_lawful thread _ fuel).copiesBack_exact ease
      (fun offset inside => ⟨offset, inside, rfl⟩) mapped fun _ => spans

/-- Binary data with a zero in the middle comes back without its end. -/
theorem not_copiesBack_binary : ∃ kernel, Userprog.AtEase kernel ∧
    (∀ offset, offset < 3 → (Userprog.Kernel.byteAt kernel ((0#32).toNat + offset)).isSome = true) ∧
    ¬ UserBytes.CopiesBack Userprog.userBytes Userprog.Kernel.byteAt kernel 0#32
      [1#8, 0#8, 1#8] := by
  obtain ⟨kernel, -, ease, seen⟩ := Userprog.exec_shortProgram
  -- The program of the example has nine pages, and three bytes lie on the first one.
  have mapped (offset : Nat) (early : offset < 3) :
      (Userprog.Kernel.byteAt kernel ((0#32).toNat + offset)).isSome = true :=
    seen _ (by rw [BitVec.toNat_ofNat, show pageSize = 128 from rfl]; omega)
  refine ⟨kernel, ease, mapped, ?_⟩
  have exactly : UserBytes.CopiesBack Userprog.userBytes Userprog.Kernel.byteAt kernel 0#32
      [1#8, 0#8, 1#8] ↔ _ :=
    Userprog.userBytes_lawful.copiesBack_exact ease (fun _ _ => trivial) mapped fun _ =>
      UserBytes.spans_of_lt (by decide)
  rw [exactly]
  decide

/-- Every page of the short program can be read. -/
theorem readPage_shortProgram (page : Nat) :
    ∃ contents, readPage Userprog.shortProgram page = .ok contents := by
  refine exists_readPage fun early => ?_
  have pages : divRoundUp (Userprog.shortProgram.header.code.size +
    Userprog.shortProgram.header.initData.size).toInt pageSize = 1 := by decide
  -- All of its code is on the first page.
  obtain rfl : page = 0 := by
    rw [pages] at early
    omega
  decide

/-- The short program can be loaded into the first kernel of the paged build. -/
theorem exec_shortProgram : ∃ kernel,
    step firstKernel (.exec 1 Userprog.shortProgram 1000) = .ok kernel ∧
      (∀ reach, AtEase kernel 1 reach) ∧
      ∀ address, address < 9 * pageSize → (kernel.byteAt address).isSome = true := by
  have succeeds : (step firstKernel (.exec 1 Userprog.shortProgram 1000)).isOk = true := by
    decide +kernel
  cases loaded : step firstKernel (.exec 1 Userprog.shortProgram 1000) with
  | error fault => simp [loaded, Except.isOk, Except.toBool] at succeeds
  | ok kernel =>
    have eased (reach : Nat → Prop) :=
      @atEase_of_exec _ _ _ reach _ _ firstKernel_boot.roomy (by decide)
        (fun page _ => readPage_shortProgram page) loaded
    have pages : Userprog.shortProgram.numPages = 9 := by decide
    exact ⟨kernel, rfl, fun reach => (eased reach).1, pages ▸ (eased fun _ => True).2⟩

/-- Text that ends with a zero comes back, in a program that was just loaded, in both builds. -/
theorem copiesBack_text :
    (∃ kernel, UserBytes.CopiesBack Userprog.userBytes Userprog.Kernel.byteAt kernel 0#32
      [72#8, 105#8, 0#8]) ∧
    ∃ kernel, UserBytes.CopiesBack (userBytes 2) Kernel.byteAt kernel 0#32
      [72#8, 105#8, 0#8] := by
  obtain ⟨linear, paged⟩ := copiesBack_iff 0#32 [72#8, 105#8, 0#8]
  obtain ⟨kernel, -, ease, seen⟩ := Userprog.exec_shortProgram
  obtain ⟨kernel', -, ease', seen'⟩ := exec_shortProgram
  -- The text lies at the beginning of the first page, in both builds.
  have small (offset : Nat) (early : offset < [72#8, 105#8, 0#8].length) :
      (0#32).toNat + offset < 9 * pageSize := by
    simp only [List.length_cons, List.length_nil] at early
    rw [BitVec.toNat_ofNat, show pageSize = 128 from rfl]
    omega
  refine ⟨⟨kernel, ?_⟩, kernel', ?_⟩
  · exact (linear kernel ease fun offset early => seen _ (small offset early)).mpr (by decide)
  · exact (paged kernel' 1 0 (ease' _) (fun offset early => seen' _ (small offset early))
      (UserBytes.spans_of_lt (by decide))).mpr (by decide)

end Nachos.Vm
