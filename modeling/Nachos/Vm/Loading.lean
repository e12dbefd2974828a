import Nachos.Userprog.Loading
import Nachos.Vm.Refinement

/-! Pages loaded on demand look like pages that the linear build loads at once. -/

namespace Nachos.Vm

/-- What decides whether a page has been asked for yet. -/
inductive Visit where
  /-- An address space was created, with new pages. -/
  | created (thread : Thread)
  /-- The handler was called for a page. -/
  | faulted (page : PageRef)
  deriving DecidableEq

/-- The page that the handler is called for, if the reference of an action needs it. -/
def Kernel.faultingPage (kernel : Kernel) (action : Action) : Option PageRef :=
  match kernel.currentThread, action.reference with
  | some thread, some (addr, _) =>
    if kernel.completes action then none else some ⟨thread, virtualPageNumber addr⟩
  | _, _ => none

/-- The visits that a step makes. -/
def observeVisits (before : Kernel) (action : Action) (_ : Kernel) : List Visit :=
  match action with
  | .exec thread _ _ | .fork thread _ => [.created thread]
  | _ => (before.faultingPage action).toList.map .faulted

/-- The pages that were asked for, after one more visit. -/
def Visit.apply (faulted : PageRef → Bool) : Visit → PageRef → Bool
  | .created thread => fun page => page.thread ≠ thread && faulted page
  | .faulted page => fun other => other = page || faulted other

/-- Has the handler been called for a page since its address space was created? -/
def hasFaulted (history : List Visit) : PageRef → Bool :=
  history.foldl Visit.apply fun _ => false

/-- Pages that were not asked for are as the constructor left them, and none is beyond the end. -/
structure Lazy (kernel : Kernel) (history : List Visit) : Prop where
  untouched : ∀ ref entry, kernel.invertedTable.view ref = some entry →
    hasFaulted history ref = false → entry.physicalPage = noPhysicalPage ∧ entry.valid = false
  sized : ∀ ref entry address file, kernel.invertedTable.view ref = some entry →
    kernel.invertedTable.home ref.thread = some (address, file) → ref.page < file.numPages

section

variable {before after : Kernel} {history : List Visit}

/-- A reference that misses calls the handler. -/
theorem Missed.faultingPage {thread : Thread} {action : Action} {addr : BitVec 32} {size : Nat}
    (missed : Missed before addr size) (running : before.currentThread = some thread)
    (reference : action.reference = some (addr, size)) :
    before.faultingPage action = some ⟨thread, virtualPageNumber addr⟩ := by
  have fault : ∀ writing, translate (.tlb before.tlb) addr size writing =
      .error (.exception .pageFault) := fun writing =>
    translate_tlb_pageFault.mpr ⟨missed.aligned, missed.missed⟩
  -- The machine does not complete a reference that it cannot translate.
  have fails : before.completes action = false := by
    cases action with
    | load addr' size' =>
      obtain ⟨rfl, rfl⟩ : addr' = addr ∧ size' = size := by
        simpa [Action.reference] using reference
      simp [Kernel.completes, readMem_pageFault.mpr (fault false), Except.isOk, Except.toBool]
    | store addr' size' value =>
      obtain ⟨rfl, rfl⟩ : addr' = addr ∧ size' = size := by
        simpa [Action.reference] using reference
      simp [Kernel.completes, writeMem_pageFault.mpr (fault true), Except.isOk, Except.toBool]
    | exec | fork | exit | switchTo => simp [Action.reference] at reference
  simp [Kernel.faultingPage, running, reference, fails]

/-- A page without a frame stays invalid when the TLB is copied. -/
theorem Sound.syncAll_unused (sound : Sound before) {entry : TranslationEntry}
    (absent : entry.physicalPage = noPhysicalPage) (unused : entry.valid = false) :
    (syncAll before.tlb entry).physicalPage = noPhysicalPage ∧
      (syncAll before.tlb entry).valid = false := by
  refine ⟨?_, ?_⟩
  · obtain ⟨dirty, valid, same⟩ := syncAll_eq before.tlb entry
    rw [same, absent]
  · cases valid : (syncAll before.tlb entry).valid with
    | false => rfl
    | true =>
      rw [sound.syncAll_absent absent valid, unused] at valid
      simp at valid

/-- A page without a frame stays invalid when it is saved. -/
theorem Sound.saved_unused (sound : Sound before) {entry : TranslationEntry}
    (absent : entry.physicalPage = noPhysicalPage) (unused : entry.valid = false) :
    (before.saved entry).physicalPage = noPhysicalPage ∧ (before.saved entry).valid = false := by
  unfold Kernel.saved
  split
  · exact ⟨absent, unused⟩
  · exact sound.syncAll_unused absent unused

/-- The last visit decides first. -/
theorem hasFaulted_concat (history : List Visit) (visit : Visit) :
    hasFaulted (history ++ [visit]) = visit.apply (hasFaulted history) := by
  simp [hasFaulted]

/-- A page that was not asked for until a reference was not asked for before it. -/
theorem hasFaulted_of_reference {action : Action} {ref : PageRef}
    (still : hasFaulted (history ++ (before.faultingPage action).toList.map .faulted) ref = false) :
    hasFaulted history ref = false := by
  cases page : before.faultingPage action with
  | none => simpa [page] using still
  | some other =>
    have both : (ref = other || hasFaulted history ref) = false := by
      simpa [page, hasFaulted_concat, Visit.apply] using still
    exact (Bool.or_eq_false_iff.mp both).2

/-- Loading on demand keeps the other pages as they are. -/
theorem Lazy.created {change : TranslationEntry → TranslationEntry} {thread : Thread}
    {count address : Nat} {file : Executable} (lazy_ : Lazy before history)
    (created : Created before.invertedTable after.invertedTable thread count address file change)
    (calm : ∀ entry, entry.physicalPage = noPhysicalPage → entry.valid = false →
      (change entry).physicalPage = noPhysicalPage ∧ (change entry).valid = false)
    (fits : ∀ page, page < count → page < file.numPages) :
    Lazy after (history ++ [.created thread]) := by
  refine ⟨?_, ?_⟩
  · intro ref entry seen still
    rcases created.view_cases seen with ⟨-, -, rfl, -⟩ | ⟨other, old, found, rfl, -⟩
    · exact ⟨rfl, rfl⟩
    · have before_ : hasFaulted history ref = false := by
        simpa [hasFaulted_concat, Visit.apply, other] using still
      obtain ⟨absent, unused⟩ := lazy_.untouched ref old found before_
      exact calm old absent unused
  · intro ref entry place program seen home
    rw [created.homes] at home
    rcases created.view_cases seen with ⟨own, inside, -, -⟩ | ⟨other, old, found, -, -⟩
    · rw [if_pos own, Option.some.injEq, Prod.mk.injEq] at home
      exact home.2 ▸ fits _ inside
    · rw [if_neg other] at home
      exact lazy_.sized ref old place program found home

/-- A step without a new address space keeps what is known when it only saves entries. -/
theorem Lazy.changed {visits : List Visit} (change : TranslationEntry → TranslationEntry)
    (lazy_ : Lazy before history)
    (views : ∀ ref entry, after.invertedTable.view ref = some entry →
      ∃ old, before.invertedTable.view ref = some old ∧ entry = change old)
    (homes : ∀ ref entry, after.invertedTable.view ref = some entry →
      after.invertedTable.home ref.thread = before.invertedTable.home ref.thread)
    (calm : ∀ entry, entry.physicalPage = noPhysicalPage → entry.valid = false →
      (change entry).physicalPage = noPhysicalPage ∧ (change entry).valid = false)
    (older : ∀ ref, hasFaulted (history ++ visits) ref = false → hasFaulted history ref = false) :
    Lazy after (history ++ visits) := by
  refine ⟨?_, ?_⟩
  · intro ref entry seen still
    obtain ⟨old, found, rfl⟩ := views ref entry seen
    obtain ⟨absent, unused⟩ := lazy_.untouched ref old found (older ref still)
    exact calm old absent unused
  · intro ref entry place program seen home
    obtain ⟨old, found, -⟩ := views ref entry seen
    rw [homes ref entry seen] at home
    exact lazy_.sized ref old place program found home

/-- The handler touches only the page it was called for and pages that have a frame. -/
theorem Lazy.faulted {page : PageRef} {file : Executable} {slot number : Nat} {origin : Origin}
    (lazy_ : Lazy before history) (sound : Sound before)
    (faulted : Faulted before after page file slot number origin) :
    Lazy after (history ++ [.faulted page]) := by
  refine ⟨?_, ?_⟩
  · intro ref entry seen still
    obtain ⟨old, found, rfl⟩ := faulted.view_after seen
    have both : (ref = page || hasFaulted history ref) = false := by
      simpa [hasFaulted_concat, Visit.apply] using still
    obtain ⟨differ, before_⟩ := Bool.or_eq_false_iff.mp both
    obtain ⟨absent, unused⟩ := lazy_.untouched ref old found before_
    -- A victim has a frame, and this page has none.
    have safe : origin.victim ≠ some ref := by
      intro lost
      obtain ⟨-, out, shown, framed⟩ := faulted.ousted ref lost
      rw [found, Option.some.injEq] at shown
      rw [← shown, absent] at framed
      exact natCast_ne_noPhysicalPage number framed.symm
    rw [Origin.change_other number (by simpa using differ) safe]
    exact sound.syncAll_unused absent unused
  · intro ref entry place program seen home
    obtain ⟨old, found, -⟩ := faulted.view_after seen
    rw [faulted.homes] at home
    exact lazy_.sized ref old place program found home

/-- Every step of the system keeps what is known about pages that were not asked for. -/
theorem Lazy.stepped {action : Action} (lazy_ : Lazy before history) (sound : Sound before)
    (stepped : Stepped before action after) :
    Lazy after (history ++ observeVisits before action after) := by
  cases stepped with
  | exec _ created _ _ _ =>
    exact lazy_.created created (fun _ absent unused => sound.saved_unused absent unused)
      fun _ inside => inside
  | @fork thread father count file address _ running filed inside created _ _ _ =>
    -- The child has as many pages as its father, and the same executable.
    refine lazy_.created created (fun _ absent unused => ⟨absent, unused⟩) fun page early => ?_
    obtain ⟨entry, seen⟩ := Option.isSome_iff_exists.mp ((inside page).mpr early)
    obtain ⟨⟨place, program⟩, home, rfl⟩ := Option.map_eq_some_iff.mp filed
    exact lazy_.sized ⟨father, page⟩ entry place program seen home
  | @exit thread _ running destroyed _ =>
    have remains : ∀ ref entry, after.invertedTable.view ref = some entry → ref.thread ≠ thread ∧
        before.invertedTable.view ref = some entry := by
      intro ref entry seen
      rw [destroyed.views] at seen
      split at seen
      · simp at seen
      · exact ⟨‹_›, seen⟩
    refine lazy_.changed id ?_ ?_ (fun _ absent unused => ⟨absent, unused⟩)
      fun ref still => hasFaulted_of_reference still
    · intro ref entry seen
      exact ⟨entry, (remains ref entry seen).2, rfl⟩
    · intro ref entry seen
      rw [destroyed.homes, if_neg (remains ref entry seen).1]
  | switchTo _ views _ homes _ _ _ =>
    refine lazy_.changed before.saved ?_ (fun ref _ _ => homes ref.thread)
      (fun _ absent unused => sound.saved_unused absent unused)
      fun ref still => hasFaulted_of_reference still
    intro ref entry seen
    rw [views, Option.map_eq_some_iff] at seen
    obtain ⟨old, found, rfl⟩ := seen
    exact ⟨old, found, rfl⟩
  | load _ _ _ =>
    exact lazy_.changed id (fun _ entry seen => ⟨entry, seen, rfl⟩)
      (fun _ _ _ => rfl) (fun _ absent unused => ⟨absent, unused⟩)
      fun ref still => hasFaulted_of_reference still
  | store _ _ _ =>
    exact lazy_.changed id (fun _ entry seen => ⟨entry, seen, rfl⟩)
      (fun _ _ _ => rfl) (fun _ absent unused => ⟨absent, unused⟩)
      fun ref still => hasFaulted_of_reference still
  | @fault thread action addr size home slot number origin _ running reference missed _ faulted =>
    have visits : observeVisits before action after =
        [.faulted ⟨thread, virtualPageNumber addr⟩] := by
      have page := missed.faultingPage running reference
      cases action with
      | load | store => simp [observeVisits, page]
      | exec | fork | exit | switchTo => simp [Action.reference] at reference
    rw [visits]
    exact lazy_.faulted sound faulted

/-- Nothing was asked for in the beginning. -/
theorem Boot.lazy (boot : Boot before) : Lazy before [] := by
  have blank : ∀ ref, before.invertedTable.view ref = none := by
    intro ref
    simp [boot.noSpaces, InvertedTable.view_eq]
  refine ⟨?_, ?_⟩
  · simp [blank]
  · simp [blank]

/-- The invariants hold in every state that the system reaches. -/
theorem lazy_of_traced
    (traced : Runs.Traced step Boot (fun _ _ => True) observeVisits before history) :
    Sound before ∧ Lazy before history := by
  refine traced.invariant (fun kernel visits => Sound kernel ∧ Lazy kernel visits)
    (fun _ boot => ⟨boot.sound, boot.lazy⟩) ?_
  rintro state action next visits ⟨sound, lazy_⟩ - done
  obtain ⟨stepped, sound'⟩ := sound.step done
  exact ⟨sound', lazy_.stepped sound stepped⟩

/-- The handler fills a page from the executable when it was never valid. -/
theorem Faulted.fills {page : PageRef} {file : Executable} {slot number : Nat} {origin : Origin}
    {entry : TranslationEntry} (faulted : Faulted before after page file slot number origin)
    (sound : Sound before) (absent : entry.physicalPage = noPhysicalPage)
    (unused : entry.valid = false) (seen : before.invertedTable.view page = some entry) :
    after.frame number = initialPage file page.page := by
  obtain ⟨other, shown, reason⟩ := faulted.justified
  rw [seen, Option.some.injEq] at shown
  subst shown
  obtain ⟨missing, invalid⟩ := sound.syncAll_unused absent unused
  have memory := faulted.memory
  rw [Kernel.frame]
  cases origin with
  | resident =>
    -- The page has no frame, so it is not in memory.
    have named : (syncAll before.tlb entry).physicalPage = number := reason
    exact absurd (named.symm.trans missing) (natCast_ne_noPhysicalPage number)
  | free => rw [memory, Origin.memory, Blocks.block_setBlock_same]
  | evicted victim => rw [memory, Origin.memory, Blocks.block_setBlock_same]
  | swapped victim contents =>
    -- Only a valid page is looked for in the backing store.
    have stored : fromStore (syncAll before.tlb entry) = true := reason.2.1
    simp [fromStore, invalid] at stored

/-- A page that is asked for the first time is filled from the executable. -/
theorem first_fault {action : Action} {page : PageRef} {address : Nat} {file : Executable}
    (traced : Runs.Traced step Boot (fun _ _ => True) observeVisits before history)
    (home : before.invertedTable.home page.thread = some (address, file))
    (faults : before.faultingPage action = some page) (first : hasFaulted history page = false)
    (done : step before action = .ok after) :
    page.page < file.numPages ∧ ∃ number : Nat,
      after.invertedTable.frameOf page = some (number : Int) ∧
        after.frame number = initialPage file page.page := by
  obtain ⟨sound, lazy_⟩ := lazy_of_traced traced
  obtain ⟨stepped, -⟩ := sound.step done
  obtain ⟨thread, addr, size, running, reference, missed⟩ : ∃ thread addr size,
      before.currentThread = some thread ∧ action.reference = some (addr, size) ∧
        before.completes action = false := by
    unfold Kernel.faultingPage at faults
    split at faults
    · rename_i thread addr size running reference
      split at faults
      · simp at faults
      · rename_i fails
        exact ⟨thread, addr, size, running, reference, by simpa using fails⟩
    · simp at faults
  cases stepped with
  | exec | fork | exit | switchTo => simp [Action.reference] at reference
  | load _ hit decoded =>
    simp [Kernel.completes, hit.readMem decoded, Except.isOk, Except.toBool] at missed
  | store _ hit encoded =>
    simp [Kernel.completes, hit.writeMem encoded, Except.isOk, Except.toBool] at missed
  | @fault thread' action addr' size' home' slot number origin _ running' reference' misses home_
      faulted =>
    obtain rfl : (⟨thread', virtualPageNumber addr'⟩ : PageRef) = page := by
      simpa using (misses.faultingPage running' reference').symm.trans faults
    obtain rfl : home' = (address, file) := by simpa using home_.symm.trans home
    obtain ⟨entry, seen, reason⟩ := faulted.justified
    obtain ⟨absent, unused⟩ := lazy_.untouched _ entry seen first
    refine ⟨lazy_.sized _ entry address file seen home, number, ?_, ?_⟩
    · rw [faulted.frameOf, if_pos rfl]
    · exact faulted.fills sound absent unused seen

end

section Agreement

variable {file : Executable}

/-- Data that follows the code in the file follows it in memory too. -/
theorem programByte_eq_image (natural : 0 ≤ file.header.code.size.toInt)
    (positive : 0 ≤ file.header.initData.size.toInt)
    (small : file.header.code.size.toInt + file.header.initData.size.toInt < 2 ^ 31)
    (follows : file.header.initData.inFileAddr.toInt =
      file.header.code.inFileAddr.toInt + file.header.code.size.toInt)
    (ends : (file.contents.length : Int) =
      file.header.initData.inFileAddr.toInt + file.header.initData.size.toInt) (address : Nat) :
    file.programByte address = image file address := by
  have page : (pageSize : Int) = 128 := rfl
  have cells : pageSize = 128 := rfl
  have total : (file.header.code.size + file.header.initData.size).toInt =
      file.header.code.size.toInt + file.header.initData.size.toInt := by
    rw [BitVec.toInt_add, Int.bmod_def]
    omega
  obtain ⟨enough, -⟩ := Userprog.divRoundUp_bounds (show 0 ≤ file.header.code.size.toInt +
    file.header.initData.size.toInt by omega)
  rw [Executable.programByte, image, total, page, cells]
  by_cases code : address < file.header.code.size.toInt.toNat
  · rw [if_pos code, if_pos (by omega), Executable.segmentByte]
  · rw [if_neg code]
    by_cases data : address < file.header.code.size.toInt.toNat +
        file.header.initData.size.toInt.toNat
    · -- Both count from the beginning of the code.
      have place : file.header.initData.inFileAddr.toInt +
          (address - file.header.code.size.toInt.toNat : Nat) =
            file.header.code.inFileAddr.toInt + address := by omega
      rw [if_pos data, if_pos (by omega), Executable.segmentByte, place]
    · -- The last page is read to the end of the file, which is the end of the data.
      rw [if_neg data]
      split
      · have absent : file.byteAt (file.header.code.inFileAddr.toInt + address) = none := by
          unfold Executable.byteAt
          split
          · apply List.getElem?_eq_none
            omega
          · rfl
        rw [absent]
        rfl
      · rfl

/--
Eager and lazy loading agree.

Whatever page the handler of the VM build is asked for the first time, it fills with the bytes that
the constructor of the linear build puts into the frame of that page.
-/
theorem eager_eq_lazy {kernel loaded : Userprog.Kernel} {space : Userprog.AddrSpace}
    (bits : kernel.physicalPageMap.numBits = numPhysPages)
    (natural : 0 ≤ file.header.code.size.toInt) (positive : 0 ≤ file.header.initData.size.toInt)
    (accepted : kernel.loadExecutable file = .ok (space, loaded))
    (follows : file.header.initData.inFileAddr.toInt =
      file.header.code.inFileAddr.toInt + file.header.code.size.toInt)
    (ends : (file.contents.length : Int) =
      file.header.initData.inFileAddr.toInt + file.header.initData.size.toInt)
    {before after : Kernel} {history : List Visit} {action : Action} {page : PageRef}
    {address : Nat}
    (traced : Runs.Traced step Boot (fun _ _ => True) observeVisits before history)
    (home : before.invertedTable.home page.thread = some (address, file))
    (faults : before.faultingPage action = some page) (first : hasFaulted history page = false)
    (done : step before action = .ok after) :
    ∃ (eager lazy_ : Nat) (entry : TranslationEntry), space.pageTable[page.page]? = some entry ∧
      entry.physicalPage = eager ∧ after.invertedTable.frameOf page = some (lazy_ : Int) ∧
      after.frame lazy_ = loaded.frame eager := by
  obtain ⟨length, whole⟩ := Userprog.Kernel.loadExecutable_loaded bits natural positive accepted
  obtain ⟨inside, number, located, filled⟩ := first_fault traced home faults first done
  have listed : page.page < space.pageTable.length := by omega
  obtain ⟨entry, present⟩ := whole.present page.page listed
  refine ⟨Userprog.frameIn space.pageTable page.page, number, entry, present.located,
    present.framed, located, ?_⟩
  -- No more pages were loaded than there are frames.
  have short : file.header.code.size.toInt + file.header.initData.size.toInt < 2 ^ 31 := by
    have frames : file.numPages ≤ numPhysPages := by
      unfold Userprog.Kernel.loadExecutable at accepted
      dsimp only at accepted
      split at accepted
      · rename_i tests
        exact tests.2.1
      · simp at accepted
    have fits := whole.fits
    have page : (pageSize : Int) = 128 := rfl
    have most : numPhysPages = 32 := rfl
    rw [page] at fits
    omega
  have eager : Blocks.block pageSize loaded.mainMemory
      (Userprog.frameIn space.pageTable page.page) = initialPage file page.page := by
    rw [← block_image, ← Blocks.block_placed]
    funext offset
    have cell : page.page * pageSize + offset < space.pageTable.length * pageSize := by
      have next : (page.page + 1) * pageSize ≤ space.pageTable.length * pageSize :=
        Nat.mul_le_mul_right _ listed
      have small := offset.isLt
      rw [Nat.succ_mul] at next
      omega
    rw [Blocks.block, Blocks.block, whole.bytes _ cell,
      programByte_eq_image natural positive short follows ends]
  rw [filled, Userprog.Kernel.frame, eager]

end Agreement

/-- The first page of a short program, which holds code, data and zeros, is the same in both. -/
theorem eager_eq_lazy_merged :
    ∃ space loaded before after entry, ∃ eager lazy_ : Nat,
      Userprog.firstKernel.loadExecutable Userprog.mergedProgram = .ok (space, loaded) ∧
      step firstKernel (.exec 1 Userprog.mergedProgram 1000) = .ok before ∧
      step before (.load 0#32 4) = .ok after ∧ space.pageTable[0]? = some entry ∧
      entry.physicalPage = (eager : Int) ∧
      after.invertedTable.frameOf ⟨1, 0⟩ = some (lazy_ : Int) ∧
      after.frame lazy_ = loaded.frame eager := by
  obtain ⟨space, loaded, accepted⟩ := @Userprog.Kernel.loadExecutable_ok Userprog.firstKernel
    Userprog.mergedProgram (by decide) (by decide) (by decide) rfl (by decide) (by decide)
    (.inr (by decide)) (.inr (by decide)) (by decide)
  obtain ⟨before, after, started, done, home, faults⟩ : ∃ before after,
      step firstKernel (.exec 1 Userprog.mergedProgram 1000) = .ok before ∧
        step before (.load 0#32 4) = .ok after ∧
        before.invertedTable.home 1 = some (1000, Userprog.mergedProgram) ∧
        before.faultingPage (.load 0#32 4) = some ⟨1, 0⟩ :=
    ⟨_, _, rfl, rfl, rfl, by decide⟩
  have traced : Runs.Traced step Boot (fun _ _ => True) observeVisits before ([] ++ [.created 1]) :=
    .next (.start firstKernel_boot) trivial started
  obtain ⟨eager, lazy_, entry, listed, framed, located, same⟩ := eager_eq_lazy (by decide)
    (by decide) (by decide) accepted (by decide) (by decide) traced home faults (by decide) done
  exact ⟨space, loaded, before, after, entry, eager, lazy_, accepted, started, done, listed, framed,
    located, same⟩

end Nachos.Vm
