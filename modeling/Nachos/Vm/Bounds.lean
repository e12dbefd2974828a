import Nachos.Vm.Destruction

/-! Addresses outside the address space, as the two builds treat them. -/

namespace Nachos

/-- The page table rejects an aligned address exactly when its page is beyond the table. -/
theorem translate_pageTable_addressError {entries : List TranslationEntry} {virtAddr : BitVec 32}
    {size : Nat} {writing : Bool} (aligned : misaligned virtAddr size = false) :
    translate (.pageTable entries) virtAddr size writing = .error (.exception .addressError) ↔
      entries.length ≤ virtualPageNumber virtAddr := by
  simp only [translate, aligned, Bool.false_eq_true, if_false, findEntry]
  cases located : entries[virtualPageNumber virtAddr]? with
  | none => simpa using List.getElem?_eq_none_iff.mp located
  | some entry =>
    have inside : ¬ entries.length ≤ virtualPageNumber virtAddr :=
      Nat.not_le.mpr (List.getElem?_eq_some_iff.mp located).1
    -- Past the bounds check only the other exceptions can be raised.
    cases valid : entry.valid with
    | false => simp [valid, inside]
    | true =>
      simp only [valid, if_true, useEntry, TranslationTable.entries, located, inside, iff_false]
      split <;> [simp; split <;> [simp; split <;> simp]]

end Nachos

namespace Nachos.Vm

/-- Both builds reject an address outside the address space, and only such an address. -/
structure SameRejection (kernel : Kernel) (numPages : Nat) (addr : BitVec 32) (size : Nat) :
    Prop where
  /-- The linear build raises an address error exactly outside the table. -/
  linear : ∀ entries : List TranslationEntry, entries.length = numPages → ∀ writing,
    (translate (.pageTable entries) addr size writing = .error (.exception .addressError) ↔
      numPages ≤ virtualPageNumber addr)
  /-- Outside the table the paged build stops without completing and without a wild access. -/
  paged : numPages ≤ virtualPageNumber addr → ∀ action, action.reference = some (addr, size) →
    ∃ fault, step kernel action = .error fault ∧ ∀ index, fault ≠ .wildAccess index

/-- A page outside the page table is not cached either. -/
theorem Sound.missed {kernel : Kernel} {thread : Thread} {space : AddrSpace} {addr : BitVec 32}
    {size : Nat} (sound : Sound kernel) (running : kernel.currentThread = some thread)
    (found : kernel.invertedTable.get? thread = some space)
    (outside : space.pageTable.length ≤ virtualPageNumber addr)
    (aligned : misaligned addr size = false) : Missed kernel addr size := by
  refine ⟨aligned, ?_⟩
  intro cached member valid named
  obtain ⟨page, called, seen⟩ := sound.within thread running cached member valid
  obtain rfl : page = virtualPageNumber addr := by omega
  rw [InvertedTable.view_of_get? found, List.getElem?_eq_none outside] at seen
  simp at seen

/-- The handler indexes the page table without a check. -/
theorem Kernel.pageFaultException_outside {kernel : Kernel} {thread : Thread} {space : AddrSpace}
    {addr : BitVec 32} (sound : Sound kernel) (found : kernel.invertedTable.get? thread = some space)
    (outside : space.pageTable.length ≤ virtualPageNumber addr) :
    kernel.pageFaultException thread addr = .error (.wildAccess (virtualPageNumber addr)) := by
  obtain ⟨searched, slot, search⟩ := sound.search
  obtain ⟨synced, found', -⟩ := get?_updataPageTables found
  have gone : kernel.updataPageTables.invertedTable.entry ⟨thread, virtualPageNumber addr⟩ = none := by
    rw [entry_updataPageTables, InvertedTable.entry, found, Option.bind_some,
      List.getElem?_eq_none outside]
    rfl
  rw [pageFaultException_eq search found']
  simp only [bringIn, InvertedTable.deref, gone, Bind.bind, Except.bind]

/-- A reference outside the page table ends in a wild access to it. -/
theorem step_outside {kernel : Kernel} {thread : Thread} {space : AddrSpace} {addr : BitVec 32}
    {size : Nat} {action : Action} (sound : Sound kernel)
    (running : kernel.currentThread = some thread)
    (found : kernel.invertedTable.get? thread = some space)
    (outside : space.pageTable.length ≤ virtualPageNumber addr)
    (aligned : misaligned addr size = false) (reference : action.reference = some (addr, size)) :
    step kernel action = .error (.wildAccess (virtualPageNumber addr)) := by
  obtain ⟨-, missed⟩ := sound.missed running found outside aligned
  have fault : ∀ writing, translate (.tlb kernel.tlb) addr size writing =
      .error (.exception .pageFault) := fun writing =>
    translate_tlb_pageFault.mpr ⟨aligned, missed⟩
  have handled := Kernel.pageFaultException_outside sound found outside
  cases action with
  | load addr' size' =>
    obtain ⟨rfl, rfl⟩ : addr' = addr ∧ size' = size := by simpa [Action.reference] using reference
    simp only [step, running, readMem_pageFault.mpr (fault false), Kernel.raise, handled]
  | store addr' size' value =>
    obtain ⟨rfl, rfl⟩ : addr' = addr ∧ size' = size := by simpa [Action.reference] using reference
    simp only [step, running, writeMem_pageFault.mpr (fault true), Kernel.raise, handled]
  | exec | fork | exit | switchTo => simp [Action.reference] at reference

/-- The two builds agree on an aligned address exactly when it lies inside the address space. -/
theorem sameRejection_iff_inside {kernel : Kernel} {thread : Thread} {space : AddrSpace}
    {addr : BitVec 32} {size : Nat} (reached : Runs.Reachable step Boot Unrestricted kernel)
    (running : kernel.currentThread = some thread)
    (found : kernel.invertedTable.get? thread = some space)
    (aligned : misaligned addr size = false) :
    SameRejection kernel space.pageTable.length addr size ↔
      virtualPageNumber addr < space.pageTable.length := by
  constructor
  · intro same
    apply Nat.lt_of_not_le
    intro outside
    obtain ⟨fault, stopped, tame⟩ := same.paged outside (.load addr size) rfl
    rw [step_outside (sound_of_reachable reached) running found outside aligned rfl,
      Except.error.injEq] at stopped
    exact tame _ stopped.symm
  · intro inside
    refine ⟨?_, fun outside => absurd inside (Nat.not_lt.mpr outside)⟩
    intro entries length writing
    rw [translate_pageTable_addressError aligned, length]

/-- The last word of the program is treated alike. -/
theorem sameRejection_last_word :
    ∃ kernel space, Runs.run step firstKernel fillFrames = .ok kernel ∧
      kernel.invertedTable.get? 1 = some space ∧
      SameRejection kernel space.pageTable.length 4220#32 4 := by
  obtain ⟨kernel, ran, seen⟩ := Runs.exists_of_runsTo
    (show Runs.runsTo step firstKernel fillFrames (fun kernel =>
      kernel.currentThread == some 1 &&
        (kernel.invertedTable.get? 1).any fun space => space.pageTable.length == 33) = true by
      decide +kernel)
  simp only [Bool.and_eq_true, beq_iff_eq, Option.any_eq_true] at seen
  obtain ⟨current, space, found, pages⟩ := seen
  have guarded : Runs.Guarded step Unrestricted firstKernel fillFrames := by decide +kernel
  refine ⟨kernel, space, ran, found, ?_⟩
  rw [sameRejection_iff_inside (Runs.Reachable.extend (.start firstKernel_boot) guarded ran)
    current found (by decide), pages]
  decide

/-- The first word beyond the program reads an entry beyond its page table. -/
theorem not_sameRejection_past_end :
    Boot firstKernel ∧ ∃ kernel space, Runs.run step firstKernel fillFrames = .ok kernel ∧
      kernel.currentThread = some 1 ∧ kernel.invertedTable.get? 1 = some space ∧
      ¬ SameRejection kernel space.pageTable.length 4224#32 4 := by
  refine ⟨firstKernel_boot, ?_⟩
  obtain ⟨kernel, ran, seen⟩ := Runs.exists_of_runsTo
    (show Runs.runsTo step firstKernel fillFrames (fun kernel =>
      kernel.currentThread == some 1 &&
        (kernel.invertedTable.get? 1).any (fun space => space.pageTable.length == 33) &&
        match step kernel (.load 4224#32 4) with
        | .ok _ => false
        | .error fault => fault == .wildAccess 33) = true by decide +kernel)
  simp only [Bool.and_eq_true, beq_iff_eq, Option.any_eq_true] at seen
  obtain ⟨⟨current, space, found, pages⟩, wild⟩ := seen
  refine ⟨kernel, space, ran, current, found, ?_⟩
  intro same
  obtain ⟨fault, stopped, tame⟩ := same.paged (by rw [pages]; decide) (.load 4224#32 4) rfl
  rw [stopped] at wild
  exact tame 33 (by simpa using wild)

end Nachos.Vm
