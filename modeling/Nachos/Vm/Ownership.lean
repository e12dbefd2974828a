import Nachos.Vm.Sound

/-! Who owns the frames, and how the frame map loses track of it. -/

namespace Nachos.Vm

/-- The frame of a page, if the page exists. -/
def InvertedTable.frameOf (table : InvertedTable) (ref : PageRef) : Option Int :=
  (table.entry ref).map TranslationEntry.physicalPage

/-- Every frame has at most one owner, and the frame map marks exactly the owned frames. -/
structure Owned (kernel : Kernel) : Prop where
  alone : ∀ first second physicalPage, kernel.invertedTable.frameOf first = some physicalPage →
    kernel.invertedTable.frameOf second = some physicalPage → physicalPage ≠ noPhysicalPage →
    first = second
  marked : ∀ number, number < numPhysPages → (kernel.physicalPageMap.testBit number = true ↔
    ∃ ref, kernel.invertedTable.frameOf ref = some (number : Int))

/-- Every frame has at most one owner. -/
def InvertedTable.Alone (table : InvertedTable) : Prop :=
  ∀ first second physicalPage, table.frameOf first = some physicalPage →
    table.frameOf second = some physicalPage → physicalPage ≠ noPhysicalPage → first = second

/-- The entry the handler will look at, when an action makes a reference that the TLB misses. -/
def Kernel.faultingEntry (kernel : Kernel) (action : Action) : Option TranslationEntry :=
  match kernel.currentThread, action.reference with
  | some thread, some (addr, size) =>
    match translate (.tlb kernel.tlb) addr size false with
    | .error (.exception .pageFault) =>
      kernel.updataPageTables.invertedTable.entry ⟨thread, virtualPageNumber addr⟩
    | _ => none
  | _, _ => none

/-- The action makes the handler call `Find` while every frame is marked, so it returns -1. -/
def Kernel.findFails (kernel : Kernel) (action : Action) : Bool :=
  match kernel.faultingEntry action with
  | none => false
  | some entry => entry.physicalPage == noPhysicalPage && !fromStore entry &&
      kernel.physicalPageMap.find.isNone

/-- `Find` never returns -1 in this step. -/
def FindSucceeds (kernel : Kernel) (action : Action) : Prop := kernel.findFails action = false

instance (kernel : Kernel) (action : Action) : Decidable (FindSucceeds kernel action) :=
  inferInstanceAs (Decidable (_ = _))

/-- The frame of a page does not depend on its use bit. -/
theorem InvertedTable.frameOf_eq (table : InvertedTable) (ref : PageRef) :
    table.frameOf ref = (table.view ref).map TranslationEntry.physicalPage := by
  simp only [frameOf, view, Option.map_map]
  rfl

/-- A reference that misses is looked up in the synchronised page table. -/
theorem Missed.faultingEntry {kernel : Kernel} {thread : Thread} {action : Action}
    {addr : BitVec 32} {size : Nat} (running : kernel.currentThread = some thread)
    (reference : action.reference = some (addr, size)) (missed : Missed kernel addr size) :
    kernel.faultingEntry action =
      kernel.updataPageTables.invertedTable.entry ⟨thread, virtualPageNumber addr⟩ := by
  have fault : translate (.tlb kernel.tlb) addr size false = .error (.exception .pageFault) :=
    translate_tlb_pageFault.mpr ⟨missed.aligned, missed.missed⟩
  simp [Kernel.faultingEntry, running, reference, fault]

/-- Only references look at page tables. -/
theorem Kernel.faultingEntry_silent (kernel : Kernel) {action : Action}
    (silent : action.reference = none) : kernel.faultingEntry action = none := by
  unfold faultingEntry
  cases kernel.currentThread <;> simp [silent]

/-- A reference that hits looks at no page table. -/
theorem Hit.faultingEntry {kernel : Kernel} {action : Action} {addr : BitVec 32}
    {size slot number : Nat} {writing : Bool} {cached : TranslationEntry}
    (reference : action.reference = some (addr, size))
    (hit : Hit kernel addr size writing slot cached number) : kernel.faultingEntry action = none := by
  have caught : translate (.tlb kernel.tlb) addr size false ≠ .error (.exception .pageFault) := by
    rw [ne_eq, translate_tlb_pageFault]
    rintro ⟨-, missed⟩
    exact missed cached (List.mem_of_getElem? hit.located) hit.valid hit.named
  unfold Kernel.faultingEntry
  cases kernel.currentThread with
  | none => rfl
  | some thread =>
    simp only [reference]

section Faulted

variable {before after : Kernel} {page : PageRef} {file : Executable} {slot number : Nat}
  {origin : Origin}

/-- Frames after a fault: the page has the new one, the victim has none. -/
theorem Faulted.frameOf (faulted : Faulted before after page file slot number origin)
    (ref : PageRef) :
    after.invertedTable.frameOf ref =
      if ref = page then some (number : Int)
      else if origin.victim = some ref then some noPhysicalPage
      else before.invertedTable.frameOf ref := by
  rw [InvertedTable.frameOf_eq, InvertedTable.frameOf_eq]
  by_cases same : ref = page
  · obtain ⟨entry, -, shown⟩ := faulted.view_page
    rw [if_pos same, same, shown]
    rfl
  · rw [if_neg same, faulted.views]
    by_cases lost : origin.victim = some ref
    · obtain ⟨differ, out, seen, -⟩ := faulted.ousted ref lost
      rw [if_pos lost, seen, Option.map_some, Option.map_some,
        Origin.change_victim number differ lost]
    · rw [if_neg lost, Origin.change_other number same lost, Option.map_map]
      congr 1
      funext entry
      simp

/-- What the handler found in the entry of the faulting page. -/
theorem Faulted.frameOf_page (faulted : Faulted before after page file slot number origin) :
    (before.invertedTable.frameOf page = some (number : Int) ∧ origin = .resident) ∨
      (before.invertedTable.frameOf page = some noPhysicalPage ∧ origin ≠ .resident) := by
  obtain ⟨entry, seen, reason⟩ := faulted.justified
  rw [InvertedTable.frameOf_eq, seen, Option.map_some]
  cases origin with
  | resident => exact .inl ⟨by simpa [Origin.Justified] using reason, rfl⟩
  | free => exact .inr ⟨by simpa using reason.1, by simp⟩
  | evicted victim => exact .inr ⟨by simpa using reason.1, by simp⟩
  | swapped victim contents => exact .inr ⟨by simpa using reason.1, by simp⟩

/-- The victim had the frame that the page gets. -/
theorem Faulted.frameOf_victim (faulted : Faulted before after page file slot number origin)
    {victim : PageRef} (lost : origin.victim = some victim) :
    before.invertedTable.frameOf victim = some (number : Int) := by
  obtain ⟨-, out, seen, framed⟩ := faulted.ousted victim lost
  rw [InvertedTable.frameOf_eq, seen, Option.map_some, framed]

/-- A page that is in memory already stays where it is, like all others. -/
theorem Faulted.frameOf_resident (faulted : Faulted before after page file slot number .resident)
    (ref : PageRef) : after.invertedTable.frameOf ref = before.invertedTable.frameOf ref := by
  rw [faulted.frameOf]
  split
  · rename_i here
    obtain ⟨own, -⟩ | ⟨-, other⟩ := faulted.frameOf_page
    · rw [here, own]
    · exact absurd rfl other
  · simp [Origin.victim]

/-- The new owner has the frame to itself when nobody but the victim had it. -/
theorem Faulted.alone (faulted : Faulted before after page file slot number origin)
    (alone : before.invertedTable.Alone)
    (only : ∀ ref, before.invertedTable.frameOf ref = some (number : Int) →
      ref = page ∨ origin.victim = some ref) : after.invertedTable.Alone := by
  -- Apart from the page itself, only pages that kept their frame have one.
  have kept : ∀ ref physicalPage, after.invertedTable.frameOf ref = some physicalPage →
      physicalPage ≠ noPhysicalPage → ref ≠ page →
      before.invertedTable.frameOf ref = some physicalPage ∧ physicalPage ≠ number := by
    intro ref physicalPage after_ present differ
    rw [faulted.frameOf, if_neg differ] at after_
    split at after_
    · simp only [Option.some.injEq] at after_
      exact absurd after_.symm present
    · rename_i safe
      refine ⟨after_, ?_⟩
      rintro rfl
      rcases only ref after_ with same | lost
      · exact differ same
      · exact safe lost
  have mine : ∀ physicalPage, after.invertedTable.frameOf page = some physicalPage →
      physicalPage = number := by
    intro physicalPage after_
    simpa [faulted.frameOf, eq_comm] using after_
  intro first second physicalPage one two present
  by_cases left : first = page <;> by_cases right : second = page
  · rw [left, right]
  · exact absurd (mine _ (left ▸ one)) (kept second _ two present right).2
  · exact absurd (mine _ (right ▸ two)) (kept first _ one present left).2
  · exact alone first second physicalPage (kept first _ one present left).1
      (kept second _ two present right).1 present

/-- A fault that does not evict through `pageOut` keeps every frame owned. -/
theorem Owned.faulted (owned : Owned before) (sound : Sound before)
    (faulted : Faulted before after page file slot number origin)
    (spacious : ∀ victim, origin ≠ .evicted victim) : Owned after := by
  have inside := faulted.inside
  cases origin with
  | resident =>
    -- Nothing moves.
    have same := faulted.frameOf_resident
    refine ⟨?_, ?_⟩
    · simp only [same]
      exact owned.alone
    · simp only [same, faulted.map, Origin.map]
      exact owned.marked
  | free =>
    -- The frame was unmarked, so nobody had it.
    obtain ⟨_, -, reason⟩ := faulted.justified
    obtain ⟨-, -, clear, -⟩ := reason
    have nobody : ∀ ref, before.invertedTable.frameOf ref ≠ some (number : Int) := by
      intro ref has
      have set := (owned.marked number inside).mpr ⟨ref, has⟩
      simp [clear] at set
    refine ⟨faulted.alone owned.alone (fun ref has => absurd has (nobody ref)), ?_⟩
    intro other within
    rw [faulted.map, Origin.map, BitMap.testBit_markBit _ _ _ (by rw [sound.bits]; exact within)]
    simp only [Bool.or_eq_true, decide_eq_true_eq, owned.marked other within, faulted.frameOf,
      Origin.victim, reduceCtorEq, if_false]
    constructor
    · rintro (rfl | ⟨ref, has⟩)
      · exact ⟨page, by simp⟩
      · refine ⟨ref, ?_⟩
        rw [if_neg, has]
        rintro rfl
        obtain ⟨-, same⟩ | ⟨none, -⟩ := faulted.frameOf_page
        · simp at same
        · rw [none, Option.some.injEq] at has
          exact natCast_ne_noPhysicalPage other has.symm
    · rintro ⟨ref, has⟩
      split at has
      · simp only [Option.some.injEq] at has
        exact .inl (by omega)
      · exact .inr ⟨ref, has⟩
  | evicted victim => exact absurd rfl (spacious victim)
  | swapped victim contents =>
    -- The frame passes from the victim to the page.
    have had := faulted.frameOf_victim rfl
    refine ⟨faulted.alone owned.alone ?_, ?_⟩
    · intro ref has
      right
      rw [owned.alone ref victim number has had (natCast_ne_noPhysicalPage number)]
      rfl
    · intro other within
      rw [faulted.map, Origin.map, owned.marked other within]
      simp only [faulted.frameOf, Origin.victim, Option.some.injEq]
      constructor
      · rintro ⟨ref, has⟩
        by_cases here : other = number
        · exact ⟨page, by simp [here]⟩
        · refine ⟨ref, ?_⟩
          rw [if_neg, if_neg, has]
          · rintro rfl
            rw [had, Option.some.injEq] at has
            omega
          · rintro rfl
            obtain ⟨-, same⟩ | ⟨none, -⟩ := faulted.frameOf_page
            · simp at same
            · rw [none, Option.some.injEq] at has
              exact natCast_ne_noPhysicalPage other has.symm
      · rintro ⟨ref, has⟩
        split at has
        · simp only [Option.some.injEq] at has
          exact ⟨victim, by rw [had, has]⟩
        · split at has
          · simp only [Option.some.injEq] at has
            exact absurd has.symm (natCast_ne_noPhysicalPage other)
          · exact ⟨ref, has⟩

/-- A fault that evicts through `pageOut` leaves the page in an unmarked frame. -/
theorem Faulted.not_owned {victim : PageRef} (sound : Sound before)
    (faulted : Faulted before after page file slot number (.evicted victim)) : ¬ Owned after := by
  intro owned
  have has : after.invertedTable.frameOf page = some (number : Int) := by
    rw [faulted.frameOf, if_pos rfl]
  have set := (owned.marked number faulted.inside).mpr ⟨page, has⟩
  rw [faulted.map, Origin.map,
    BitMap.testBit_clearBit _ _ _ (by rw [sound.bits]; exact faulted.inside)] at set
  simp at set

/-- `Find` fails in a fault exactly when the handler goes on to evict through `pageOut`. -/
theorem Faulted.findFails_iff {thread : Thread} {action : Action} {addr : BitVec 32} {size : Nat}
    (sound : Sound before) (running : before.currentThread = some thread)
    (reference : action.reference = some (addr, size)) (missed : Missed before addr size)
    (faulted : Faulted before after ⟨thread, virtualPageNumber addr⟩ file slot number origin) :
    before.findFails action = true ↔ ∃ victim, origin = .evicted victim := by
  obtain ⟨seen, shown, reason⟩ := faulted.justified
  obtain ⟨entry, found, rfl⟩ := InvertedTable.view_eq_some.mp shown
  rw [← clearUse_syncAll] at reason
  simp only [Kernel.findFails, missed.faultingEntry running reference,
    Kernel.entry_updataPageTables, found, Option.map_some, Bool.and_eq_true, beq_iff_eq,
    Bool.not_eq_true', Option.isNone_iff_eq_none]
  cases origin with
  | resident =>
    have present : (syncAll before.tlb entry).physicalPage = number := reason
    simp only [present, natCast_ne_noPhysicalPage, false_and, reduceCtorEq, exists_false]
  | free =>
    obtain ⟨-, -, clear, -⟩ := reason
    have some_ : before.physicalPageMap.find ≠ none := by
      intro full
      have set := BitMap.find_eq_none.mp full number (by rw [sound.bits]; exact faulted.inside)
      simp [clear] at set
    simp [some_]
  | evicted victim =>
    obtain ⟨absent, unstored, full⟩ := reason
    exact ⟨fun _ => ⟨victim, rfl⟩, fun _ => ⟨⟨absent, unstored⟩, full⟩⟩
  | swapped victim contents =>
    obtain ⟨-, stored, -⟩ := reason
    have stored' : fromStore (syncAll before.tlb entry) = true := stored
    simp [stored']

end Faulted

section Tables

variable {before after : Kernel}

/-- Ownership only looks at frames and marks. -/
theorem Owned.congr (owned : Owned before)
    (frames : ∀ ref, after.invertedTable.frameOf ref = before.invertedTable.frameOf ref)
    (map : after.physicalPageMap = before.physicalPageMap) : Owned after := by
  refine ⟨?_, ?_⟩
  · simp only [frames]
    exact owned.alone
  · simp only [frames, map]
    exact owned.marked

/-- A harmless change of entries moves no page. -/
theorem frameOf_changed {change : TranslationEntry → TranslationEntry} (harmless : Harmless change)
    {ref : PageRef}
    (view : after.invertedTable.view ref = (before.invertedTable.view ref).map change) :
    after.invertedTable.frameOf ref = before.invertedTable.frameOf ref := by
  rw [InvertedTable.frameOf_eq, InvertedTable.frameOf_eq, view, Option.map_map]
  congr 1
  funext entry
  exact harmless.physicalPage entry

/-- The pages of a new address space have no frames. -/
theorem Created.frameOf {before after : InvertedTable} {thread : Thread} {count address : Nat}
    {file : Executable} {change : TranslationEntry → TranslationEntry}
    (created : Created before after thread count address file change) (harmless : Harmless change)
    {ref : PageRef} {physicalPage : Int} (present : physicalPage ≠ noPhysicalPage) :
    after.frameOf ref = some physicalPage ↔ before.frameOf ref = some physicalPage := by
  have absent : ref.thread = thread → before.view ref = none := by
    intro own
    cases seen : before.view ref with
    | none => rfl
    | some entry =>
      obtain ⟨space, found, -⟩ := InvertedTable.entryAddress_of_view seen
      rw [own] at found
      exact absurd ((Map.mem_getKeys before thread).mpr ⟨space, found⟩) created.fresh
  rw [InvertedTable.frameOf_eq, InvertedTable.frameOf_eq, created.views]
  by_cases own : ref.thread = thread
  · rw [if_pos own, absent own]
    split
    · simp [freshEntry, Ne.symm present]
    · simp
  · rw [if_neg own]
    cases before.view ref <;> simp [harmless.physicalPage]

/-- A new address space takes no frame from anybody. -/
theorem Created.alone {before after : InvertedTable} {thread : Thread} {count address : Nat}
    {file : Executable} {change : TranslationEntry → TranslationEntry}
    (created : Created before after thread count address file change) (harmless : Harmless change)
    (alone : before.Alone) : after.Alone := by
  intro first second physicalPage one two present
  rw [created.frameOf harmless present] at one two
  exact alone first second physicalPage one two present

/-- The pages of a destroyed address space are gone, and all others keep their frames. -/
theorem Destroyed.frameOf {thread : Thread} (destroyed : Destroyed before after thread)
    (ref : PageRef) : after.invertedTable.frameOf ref =
      if ref.thread = thread then none else before.invertedTable.frameOf ref := by
  rw [InvertedTable.frameOf_eq, InvertedTable.frameOf_eq, destroyed.views]
  split <;> simp

/-- The frames that a thread occupies are those of its pages. -/
theorem InvertedTable.occupies_iff_frameOf {table : InvertedTable} {thread : Thread}
    {number : Nat} :
    table.Occupies thread number ↔ ∃ page, table.frameOf ⟨thread, page⟩ = some (number : Int) := by
  simp [InvertedTable.Occupies, InvertedTable.frameOf_eq]

/-- Destroying an address space gives nobody a second owner. -/
theorem Destroyed.alone {thread : Thread} (destroyed : Destroyed before after thread)
    (alone : before.invertedTable.Alone) : after.invertedTable.Alone := by
  intro first second physicalPage one two present
  rw [destroyed.frameOf] at one two
  split at one
  · cases one
  · split at two
    · cases two
    · exact alone first second physicalPage one two present

/-- A new address space owns no frames. -/
theorem Owned.created {change : TranslationEntry → TranslationEntry} {thread : Thread}
    {count address : Nat} {file : Executable} (owned : Owned before) (harmless : Harmless change)
    (created : Created before.invertedTable after.invertedTable thread count address file change)
    (map : after.physicalPageMap = before.physicalPageMap) : Owned after := by
  refine ⟨created.alone harmless owned.alone, ?_⟩
  intro number inside
  rw [map, owned.marked number inside]
  simp only [created.frameOf harmless (natCast_ne_noPhysicalPage number)]

/-- The frames of a destroyed address space become free, and no others. -/
theorem Owned.destroyed {thread : Thread} (owned : Owned before)
    (destroyed : Destroyed before after thread) : Owned after := by
  refine ⟨destroyed.alone owned.alone, ?_⟩
  intro number inside
  simp only [destroyed.frameOf]
  by_cases occupied : before.invertedTable.Occupies thread number
  · -- Its one owner is gone.
    rw [(destroyed.cleared number occupied).2]
    obtain ⟨page, has⟩ := InvertedTable.occupies_iff_frameOf.mp occupied
    simp only [Bool.false_eq_true, false_iff, not_exists]
    intro ref still
    split at still
    · simp at still
    · rename_i other
      have same := owned.alone ref ⟨thread, page⟩ number still has
        (natCast_ne_noPhysicalPage number)
      exact other (by rw [same])
  · rw [(destroyed.kept number inside occupied).2, owned.marked number inside]
    constructor
    · rintro ⟨ref, has⟩
      refine ⟨ref, ?_⟩
      rw [if_neg, has]
      rintro rfl
      exact occupied (InvertedTable.occupies_iff_frameOf.mpr ⟨ref.page, has⟩)
    · rintro ⟨ref, has⟩
      split at has
      · simp at has
      · exact ⟨ref, has⟩

end Tables

/-- An owned kernel stays owned in a step exactly when `Find` does not fail in it. -/
theorem Owned.stepped {before after : Kernel} {action : Action} (owned : Owned before)
    (sound : Sound before) (stepped : Stepped before action after) :
    Owned after ↔ FindSucceeds before action := by
  have silent : ∀ {action}, action.reference = none → FindSucceeds before action := by
    intro action none
    simp [FindSucceeds, Kernel.findFails, before.faultingEntry_silent none]
  have hits : ∀ {action addr size}, action.reference = some (addr, size) →
      ∀ {writing slot cached number}, Hit before addr size writing slot cached number →
      FindSucceeds before action := by
    intro action addr size reference writing slot cached number hit
    simp [FindSucceeds, Kernel.findFails, hit.faultingEntry reference]
  cases stepped with
  | exec magic created tlb running storage =>
    exact iff_of_true (owned.created sound.harmless created storage.map) (silent rfl)
  | fork father filed pages created tlb running storage =>
    exact iff_of_true (owned.created .id created storage.map) (silent rfl)
  | exit running destroyed idle => exact iff_of_true (owned.destroyed destroyed) (silent rfl)
  | switchTo member views keys homes tlb running storage =>
    exact iff_of_true (owned.congr (fun ref => frameOf_changed sound.harmless (views ref))
      storage.map) (silent rfl)
  | load running hit decoded =>
    exact iff_of_true (owned.congr (fun _ => rfl) rfl) (hits rfl hit)
  | store running hit encoded =>
    exact iff_of_true (owned.congr (fun _ => rfl) rfl) (hits rfl hit)
  | fault running reference missed located faulted =>
    unfold FindSucceeds
    rw [← Bool.not_eq_true, faulted.findFails_iff sound running reference missed, not_exists]
    constructor
    · rintro still victim rfl
      exact faulted.not_owned sound still
    · intro spacious
      exact owned.faulted sound faulted spacious

/-- Nobody owns anything at the start. -/
theorem Boot.owned {kernel : Kernel} (boot : Boot kernel) : Owned kernel := by
  obtain ⟨garbage, covers, fresh⟩ := boot.freshMap
  have blank : ∀ ref, kernel.invertedTable.frameOf ref = none := by
    intro ref
    simp [boot.noSpaces, InvertedTable.frameOf, InvertedTable.entry]
  refine ⟨by simp [blank], ?_⟩
  intro number inside
  simp [blank, fresh, BitMap.testBit_new covers inside]

/--
Frames have one owner each and are marked exactly when owned, as long as `Find` never fails.

The first step in which `Find` fails breaks this.
-/
theorem owned_iff_findSucceeds {kernel : Kernel}
    (reached : Runs.Reachable step Boot FindSucceeds kernel) :
    Owned kernel ∧ ∀ action after, step kernel action = .ok after →
      (Owned after ↔ FindSucceeds kernel action) := by
  have owned : Owned kernel := by
    -- Soundness is carried along, since each step is inverted in a sound kernel.
    have both : Sound kernel ∧ Owned kernel := by
      refine reached.invariant (fun kernel => Sound kernel ∧ Owned kernel) (fun _ boot => ⟨boot.sound, boot.owned⟩) ?_
      rintro before action after ⟨sound, owned⟩ allowed done
      obtain ⟨stepped, sound'⟩ := sound.step done
      exact ⟨sound', (owned.stepped sound stepped).mpr allowed⟩
    exact both.2
  refine ⟨owned, ?_⟩
  intro action after done
  have sound := sound_of_reachable reached
  exact owned.stepped sound (sound.step done).1

/-- A program with a code segment of 25 pages, filled with one value, and 8 pages of stack. -/
def wideProgram : Executable where
  header := ⟨true, ⟨0#32, 40#32, 3200#32⟩, ⟨0#32, 0#32, 0#32⟩, ⟨0#32, 0#32, 0#32⟩⟩
  contents := List.replicate 3240 5#8
  fits := by rw [List.length_replicate]; omega

/-- The kernel before any program runs, on a machine that starts with zeros everywhere. -/
def firstKernel : Kernel where
  tlb := List.replicate tlbSize ⟨0, 0, false, false, false, false⟩
  mainMemory := fun _ => 0
  physicalPageMap := BitMap.new numPhysPages [0#32] BitMap.fits_oneWord
  invertedTable := Map.empty
  backingStore := Map.empty
  tlbIndex := 0
  physicalIndex := 0
  currentThread := none

/-- That kernel is one that `Initialize` may leave. -/
theorem firstKernel_boot : Boot firstKernel where
  tlbLength := rfl
  tlbInvalid := by simp [firstKernel]
  zeroMemory := rfl
  freshMap := ⟨[0#32], by decide, rfl⟩
  noSpaces := rfl
  emptyStore := rfl
  tlbStart := rfl
  physicalStart := rfl
  idle := rfl

/-- Load a word of a page that is not in the TLB: the reference faults and is tried again. -/
def visit (page : Nat) : List Action :=
  List.replicate 2 (.load (BitVec.ofNat 32 (page * pageSize)) 4)

/-- Thread 1 runs the program and visits as many pages as there are frames. -/
def fillFrames : List Action := .exec 1 wideProgram 1000 :: (List.range numPhysPages).flatMap visit

/-- Store a word to a page that is not in the TLB: the reference faults and is tried again. -/
def scribble (page : Nat) : List Action :=
  List.replicate 2 (.store (BitVec.ofNat 32 (page * pageSize)) 4 7#32)

/-- Thread 1 writes to its first page, and visits the others until that page is swapped out. -/
def scribbleAndEvict : List Action :=
  .exec 1 wideProgram 1000 :: scribble 0 ++ (List.range' 1 numPhysPages).flatMap visit

/-- Filling the frames is harmless, and the frames are owned afterwards. -/
theorem owned_fillFrames :
    ∃ kernel, Runs.run step firstKernel fillFrames = .ok kernel ∧ Owned kernel := by
  obtain ⟨kernel, ran, -⟩ := Runs.exists_of_runsTo
    (show Runs.runsTo step firstKernel fillFrames (fun _ => true) = true by decide +kernel)
  have guarded : Runs.Guarded step FindSucceeds firstKernel fillFrames := by decide +kernel
  exact ⟨kernel, ran, (owned_iff_findSucceeds
    (Runs.Reachable.extend (.start firstKernel_boot) guarded ran)).1⟩

/-- After one more page the frame map has lost track: the new page has an unmarked frame. -/
theorem not_owned_after_pageOut :
    Boot firstKernel ∧ ∃ kernel,
      Runs.run step firstKernel (fillFrames ++ visit 32) = .ok kernel ∧ ¬ Owned kernel := by
  refine ⟨firstKernel_boot, ?_⟩
  obtain ⟨kernel, ran, seen⟩ := Runs.exists_of_runsTo
    (show Runs.runsTo step firstKernel (fillFrames ++ visit 32) (fun kernel =>
      kernel.invertedTable.frameOf ⟨1, 32⟩ == some 0 &&
        !kernel.physicalPageMap.testBit 0) = true by decide +kernel)
  simp only [Bool.and_eq_true, beq_iff_eq, Bool.not_eq_true'] at seen
  refine ⟨kernel, ran, ?_⟩
  intro owned
  have set := (owned.marked 0 (by decide)).mpr ⟨⟨1, 32⟩, seen.1⟩
  simp [seen.2] at set

end Nachos.Vm
