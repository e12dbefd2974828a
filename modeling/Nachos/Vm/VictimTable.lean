import Mathlib.Data.Finset.Card
import Mathlib.Data.Finset.Range
import Nachos.Vm.Ownership

/-! The table of pointers that second chance searches: when it has one entry for each frame. -/

namespace Nachos.Vm

/-- Does any page have this frame? -/
def Kernel.names (kernel : Kernel) (number : Nat) : Bool :=
  kernel.invertedTable.residentRefs.any fun ref =>
    kernel.invertedTable.frameOf ref == some (number : Int)

/-- The action makes the handler search the table of pointers, itself or in `FindPage`. -/
def Kernel.searches (kernel : Kernel) (action : Action) : Bool :=
  match kernel.faultingEntry action with
  | none => false
  | some entry => entry.physicalPage == noPhysicalPage &&
      (fromStore entry || kernel.physicalPageMap.find.isNone)

/-- The action makes `Find` hand out a frame that a page has. -/
def Kernel.findsTaken (kernel : Kernel) (action : Action) : Bool :=
  match kernel.faultingEntry action with
  | none => false
  | some entry => entry.physicalPage == noPhysicalPage && !fromStore entry &&
      match kernel.physicalPageMap.find with
      | none => false
      | some (number, _) => kernel.names number

/-- The action fetches a page from the backing store while there is a frame that no page has. -/
def Kernel.swapsBesideFree (kernel : Kernel) (action : Action) : Bool :=
  match kernel.faultingEntry action with
  | none => false
  | some entry => entry.physicalPage == noPhysicalPage && fromStore entry &&
      (List.range numPhysPages).any fun number => !kernel.names number

/-- `Find` hands out only frames that are free, and the backing store is only used when none is. -/
def SwapsWhenFull (kernel : Kernel) (action : Action) : Prop :=
  kernel.findsTaken action = false ∧ kernel.swapsBesideFree action = false

instance (kernel : Kernel) (action : Action) : Decidable (SwapsWhenFull kernel action) :=
  inferInstanceAs (Decidable (_ ∧ _))

/--
Whenever second chance searches the table of pointers, the table has one for each of its slots.

Then no slot is left as the allocator made it, and no pointer was written behind the last slot.
-/
def VictimTableComplete (kernel : Kernel) (action : Action) : Prop :=
  kernel.searches action = true → ∃ refs,
    kernel.updataPageTables.getPhysicalPageTable = .ok refs ∧ refs.length = numPhysPages

/-- Every frame has at most one owner, and marked frames have one. -/
structure Tracked (kernel : Kernel) : Prop where
  alone : ∀ first second physicalPage, kernel.invertedTable.frameOf first = some physicalPage →
    kernel.invertedTable.frameOf second = some physicalPage → physicalPage ≠ noPhysicalPage →
    first = second
  owned : ∀ number, number < numPhysPages → kernel.physicalPageMap.testBit number = true →
    ∃ ref, kernel.invertedTable.frameOf ref = some (number : Int)

/-- A frame is named exactly if a page has it. -/
theorem Kernel.names_iff {kernel : Kernel} {number : Nat} :
    kernel.names number = true ↔
      ∃ ref, kernel.invertedTable.frameOf ref = some (number : Int) := by
  simp only [names, List.any_eq_true, beq_iff_eq]
  constructor
  · -- The search goes over pages in memory only, and a page with a frame is one of them.
    rintro ⟨ref, -, has⟩
    exact ⟨ref, has⟩
  · rintro ⟨ref, has⟩
    obtain ⟨entry, located, framed⟩ := Option.map_eq_some_iff.mp has
    refine ⟨ref, InvertedTable.mem_residentRefs.mpr ⟨entry, located, ?_⟩, has⟩
    rw [framed]
    exact natCast_ne_noPhysicalPage number

/-- The collected pointers are distinct. -/
theorem InvertedTable.nodup_residentRefs {table : InvertedTable} (distinct : table.getKeys.Nodup) :
    table.residentRefs.Nodup := by
  refine List.nodup_flatMap.mpr ⟨fun thread _ => ?_, distinct.imp fun {first second} differ => ?_⟩
  · -- The pointers of one thread differ in the page.
    cases table.get? thread with
    | none => exact List.nodup_nil
    | some space =>
      refine (List.nodup_range.filter _).map fun one two same => ?_
      exact (PageRef.mk.inj same).2
  · -- The pointers of different threads differ in the thread.
    intro ref one two
    dsimp only at one two
    split at one
    · cases one
    split at two
    · cases two
    obtain ⟨page, -, rfl⟩ := List.mem_map.mp one
    obtain ⟨other, -, same⟩ := List.mem_map.mp two
    exact differ (PageRef.mk.inj same).1.symm

/-- Synchronising moves no page in or out of memory. -/
theorem Kernel.length_residentRefs_updataPageTables {kernel : Kernel}
    (distinct : kernel.invertedTable.getKeys.Nodup) :
    kernel.updataPageTables.invertedTable.residentRefs.length =
      kernel.invertedTable.residentRefs.length := by
  -- Before and after, the same pages have a frame.
  refine List.Perm.length_eq ((List.perm_ext_iff_of_nodup
    (InvertedTable.nodup_residentRefs (by rwa [kernel.getKeys_updataPageTables]))
    (InvertedTable.nodup_residentRefs distinct)).mpr fun ref => ?_)
  simp only [InvertedTable.mem_residentRefs, kernel.entry_updataPageTables]
  cases kernel.invertedTable.entry ref <;> simp

/-- Distinct numbers below a bound are as many as the bound exactly if they are all of them. -/
theorem length_eq_iff_covers {numbers : List Nat} {bound : Nat} (distinct : numbers.Nodup)
    (below : ∀ number ∈ numbers, number < bound) :
    numbers.length ≤ bound ∧
      (numbers.length = bound ↔ ∀ number < bound, number ∈ numbers) := by
  -- The numbers are a subset of those below the bound, so only their size has to be compared.
  have within : numbers.toFinset ⊆ Finset.range bound := fun number member =>
    Finset.mem_range.mpr (below number (List.mem_toFinset.mp member))
  have size := List.toFinset_card_of_nodup distinct
  have most := Finset.card_le_card within
  rw [size, Finset.card_range] at most
  refine ⟨most, fun whole number inside => ?_, fun all => ?_⟩
  · have every := Finset.eq_of_subset_of_card_le within (by rw [size, whole, Finset.card_range])
    rw [← List.mem_toFinset, every]
    exact Finset.mem_range.mpr inside
  · -- All numbers below the bound are there, and no others.
    have every : numbers.toFinset = Finset.range bound :=
      Finset.Subset.antisymm within fun number inside =>
        List.mem_toFinset.mpr (all number (Finset.mem_range.mp inside))
    rw [← size, every, Finset.card_range]

/-- There are as many pages in memory as frames exactly if every frame is named. -/
theorem Tracked.length_residentRefs {kernel : Kernel} (tracked : Tracked kernel)
    (sound : Sound kernel) :
    kernel.invertedTable.residentRefs.length ≤ numPhysPages ∧
      (kernel.invertedTable.residentRefs.length = numPhysPages ↔
        ∀ number < numPhysPages, kernel.names number = true) := by
  -- Each page in memory is counted by the number of its frame.
  let frame (ref : PageRef) : Nat := ((kernel.invertedTable.frameOf ref).getD 0).toNat
  have framed (ref : PageRef) (member : ref ∈ kernel.invertedTable.residentRefs) :
      kernel.invertedTable.frameOf ref = some (frame ref : Int) ∧ frame ref < numPhysPages := by
    obtain ⟨entry, located, present⟩ := InvertedTable.mem_residentRefs.mp member
    have has : kernel.invertedTable.frameOf ref = some entry.physicalPage :=
      congrArg (Option.map TranslationEntry.physicalPage) located
    -- The page has a frame, so the view of the kernel names one inside of memory.
    obtain absent | ⟨number, same, inside⟩ := sound.framed ref (clearUse entry)
      (congrArg (Option.map clearUse) located)
    · exact absurd absent present
    · rw [clearUse_physicalPage] at same
      have own : frame ref = number := by simp [frame, has, same]
      exact ⟨by rw [has, same, own], own ▸ inside⟩
  -- No two pages have one frame, so no number is counted twice.
  have frames : (kernel.invertedTable.residentRefs.map frame).Nodup := by
    refine (InvertedTable.nodup_residentRefs sound.distinct).map_on
      fun one first two second same => ?_
    refine tracked.alone one two _ (framed one first).1 ?_ (natCast_ne_noPhysicalPage _)
    rw [(framed two second).1, same]
  have below (number : Nat) (member : number ∈ kernel.invertedTable.residentRefs.map frame) :
      number < numPhysPages := by
    obtain ⟨ref, listed, rfl⟩ := List.mem_map.mp member
    exact (framed ref listed).2
  -- A frame is named exactly if it is counted.
  have named (number : Nat) : kernel.names number = true ↔
      number ∈ kernel.invertedTable.residentRefs.map frame := by
    rw [Kernel.names_iff, List.mem_map]
    constructor
    · rintro ⟨ref, has⟩
      obtain ⟨entry, located, same⟩ := Option.map_eq_some_iff.mp has
      have member : ref ∈ kernel.invertedTable.residentRefs :=
        InvertedTable.mem_residentRefs.mpr
          ⟨entry, located, same ▸ natCast_ne_noPhysicalPage number⟩
      refine ⟨ref, member, ?_⟩
      have again := (framed ref member).1
      rw [has, Option.some.injEq] at again
      omega
    · rintro ⟨ref, member, rfl⟩
      exact ⟨ref, (framed ref member).1⟩
  have counted := length_eq_iff_covers frames below
  rw [List.length_map] at counted
  simpa only [named] using counted

section Faulted

variable {before after : Kernel} {thread : Thread} {file : Executable} {slot number : Nat}
  {origin : Origin} {action : Action} {addr : BitVec 32} {size : Nat}

/-- A fault moves only pages that have its frame, or get it. -/
theorem Faulted.frameOf_other {page ref : PageRef} {other : Nat}
    (faulted : Faulted before after page file slot number origin)
    (has : before.invertedTable.frameOf ref = some (other : Int)) (differ : other ≠ number) :
    after.invertedTable.frameOf ref = some (other : Int) := by
  rw [faulted.frameOf, if_neg, if_neg, has]
  · -- A page that loses its frame loses the frame of the fault, and this one is another.
    intro lost
    rw [faulted.frameOf_victim lost, Option.some.injEq] at has
    omega
  · -- The page of the fault has the frame of the fault or none.
    rintro rfl
    obtain ⟨own, -⟩ | ⟨none, -⟩ := faulted.frameOf_page
    · rw [own, Option.some.injEq] at has
      omega
    · rw [none, Option.some.injEq] at has
      exact natCast_ne_noPhysicalPage other has.symm

/-- A fault keeps track of the owners unless `Find` hands out a frame that a page has. -/
theorem Tracked.faulted (tracked : Tracked before) (sound : Sound before)
    (running : before.currentThread = some thread) (reference : action.reference = some (addr, size))
    (missed : Missed before addr size)
    (faulted : Faulted before after ⟨thread, virtualPageNumber addr⟩ file slot number origin)
    (allowed : before.findsTaken action = false) : Tracked after := by
  -- `alone` is kept if whoever has the frame of the fault is its page or loses it.
  have inside := faulted.inside
  have bit := sound.bits ▸ inside
  refine ⟨faulted.alone tracked.alone fun ref has => ?_, fun other within set => ?_⟩
  · cases origin with
    | resident =>
      -- The page has had this frame before, so nobody else has.
      obtain ⟨own, -⟩ | ⟨-, other⟩ := faulted.frameOf_page
      · exact .inl (tracked.alone ref _ number has own (natCast_ne_noPhysicalPage number))
      · exact absurd rfl other
    | free =>
      -- `Find` has handed out this frame, so nobody had it.
      obtain ⟨seen, shown, reason⟩ := faulted.justified
      obtain ⟨entry, found, rfl⟩ := InvertedTable.view_eq_some.mp shown
      rw [← clearUse_syncAll] at reason
      obtain ⟨absent, unstored, clear, earlier⟩ := reason
      simp only [Kernel.findsTaken, missed.faultingEntry running reference,
        Kernel.entry_updataPageTables, found, Option.map_some] at allowed
      rw [clearUse_physicalPage] at absent
      have loads : fromStore (syncAll before.tlb entry) = false := unstored
      cases handed : before.physicalPageMap.find with
      | none =>
        -- `Find` fails only if every frame is marked, but this one is clear.
        have set := BitMap.find_eq_none.mp handed number bit
        simp [clear] at set
      | some pair =>
        obtain ⟨first, map⟩ := pair
        obtain ⟨-, free, -, full⟩ := BitMap.find_spec handed
        -- `Find` hands out the first clear frame, which is the one of the fault.
        have same : first = number := by
          rcases Nat.lt_trichotomy first number with less | same | more
          · simp [earlier first less] at free
          · exact same
          · simp [full number more] at clear
        simp only [absent, loads, handed, same, beq_self_eq_true, Bool.not_false,
          Bool.true_and] at allowed
        -- If a page had that frame, `Find` would have handed out a taken frame.
        have taken := Kernel.names_iff.mpr ⟨ref, has⟩
        simp [allowed] at taken
    | evicted victim | swapped victim contents =>
      -- The victim is the only page that had the frame, and it has lost it.
      have had := faulted.frameOf_victim rfl
      right
      rw [tracked.alone ref victim number has had (natCast_ne_noPhysicalPage number)]
      rfl
  · -- The frame of the fault belongs to its page now.
    by_cases here : other = number
    · refine ⟨⟨thread, virtualPageNumber addr⟩, ?_⟩
      rw [faulted.frameOf, if_pos rfl, here]
    · -- The fault has marked or cleared no frame but its own.
      have before_ : before.physicalPageMap.testBit other = true := by
        rw [faulted.map] at set
        cases origin with
        | resident | swapped => exact set
        | free =>
          rw [Origin.map, BitMap.testBit_markBit _ _ _ (sound.bits ▸ within)] at set
          simpa [Ne.symm here] using set
        | evicted victim =>
          rw [Origin.map, BitMap.testBit_clearBit _ _ _ (sound.bits ▸ within)] at set
          simpa [Ne.symm here] using set
      obtain ⟨ref, has⟩ := tracked.owned other within before_
      exact ⟨ref, faulted.frameOf_other has here⟩

end Faulted

section Steps

variable {before after : Kernel} {action : Action}

/-- Tracking only looks at frames and marks. -/
theorem Tracked.congr (tracked : Tracked before)
    (frames : ∀ ref, after.invertedTable.frameOf ref = before.invertedTable.frameOf ref)
    (map : after.physicalPageMap = before.physicalPageMap) : Tracked after := by
  refine ⟨?_, ?_⟩
  · simp only [frames]
    exact tracked.alone
  · simp only [frames, map]
    exact tracked.owned

/-- A new address space owns no frame, and takes none. -/
theorem Tracked.created {change : TranslationEntry → TranslationEntry} {thread : Thread}
    {count address : Nat} {file : Executable} (tracked : Tracked before) (harmless : Harmless change)
    (created : Created before.invertedTable after.invertedTable thread count address file change)
    (map : after.physicalPageMap = before.physicalPageMap) : Tracked after := by
  refine ⟨created.alone harmless tracked.alone, fun number inside set => ?_⟩
  obtain ⟨ref, has⟩ := tracked.owned number inside (map ▸ set)
  exact ⟨ref, (created.frameOf harmless (natCast_ne_noPhysicalPage number)).mpr has⟩

/-- A frame that is still marked after an exit has an owner that is still there. -/
theorem Tracked.destroyed {thread : Thread} (tracked : Tracked before)
    (destroyed : Destroyed before after thread) : Tracked after := by
  refine ⟨destroyed.alone tracked.alone, fun number inside set => ?_⟩
  by_cases occupied : before.invertedTable.Occupies thread number
  · -- The frames of the thread that exits are cleared.
    simp [(destroyed.cleared number occupied).2] at set
  · -- A frame that stays marked had an owner, and it was not the thread that exits.
    rw [(destroyed.kept number inside occupied).2] at set
    obtain ⟨ref, has⟩ := tracked.owned number inside set
    refine ⟨ref, ?_⟩
    rw [destroyed.frameOf, if_neg, has]
    rintro rfl
    exact occupied (InvertedTable.occupies_iff_frameOf.mpr ⟨ref.page, has⟩)

/-- Every step keeps track of the owners unless `Find` hands out a frame that a page has. -/
theorem Tracked.stepped (tracked : Tracked before) (sound : Sound before)
    (stepped : Stepped before action after) (allowed : before.findsTaken action = false) :
    Tracked after := by
  cases stepped with
  | exec magic created tlb running storage =>
    exact tracked.created sound.harmless created storage.map
  | fork father filed pages created tlb running storage =>
    exact tracked.created .id created storage.map
  | exit running destroyed idle => exact tracked.destroyed destroyed
  -- Switching copies dirty and valid bits, and no frame.
  | switchTo member views keys homes tlb running storage =>
    exact tracked.congr (fun ref => frameOf_changed sound.harmless (views ref)) storage.map
  | load running hit decoded => exact tracked.congr (fun _ => rfl) rfl
  | store running hit encoded => exact tracked.congr (fun _ => rfl) rfl
  | fault running reference missed located faulted =>
    exact tracked.faulted sound running reference missed faulted allowed

/-- Nobody owns anything at the start. -/
theorem Boot.tracked {kernel : Kernel} (boot : Boot kernel) : Tracked kernel :=
  ⟨boot.owned.alone, fun number inside set => (boot.owned.marked number inside).mp set⟩

/-- The table is complete unless a page is fetched from the backing store beside a free frame. -/
theorem Tracked.complete_iff {kernel : Kernel} (tracked : Tracked kernel) (sound : Sound kernel)
    (action : Action) :
    VictimTableComplete kernel action ↔ kernel.swapsBesideFree action = false := by
  -- What the loop collects are the pages in memory, as many as there are frames at most.
  obtain ⟨most, whole⟩ := tracked.length_residentRefs sound
  have collected : (∃ refs, kernel.updataPageTables.getPhysicalPageTable = .ok refs ∧
      refs.length = numPhysPages) ↔ ∀ number < numPhysPages, kernel.names number = true := by
    have same := kernel.length_residentRefs_updataPageTables sound.distinct
    rw [Kernel.getPhysicalPageTable, if_pos (same ▸ most), ← whole, ← same]
    constructor
    · rintro ⟨refs, found, length⟩
      rw [Except.ok.inj found, length]
    · exact fun length => ⟨_, rfl, length⟩
  unfold VictimTableComplete Kernel.searches Kernel.swapsBesideFree
  rw [collected]
  cases kernel.faultingEntry action with
  | none => simp
  | some entry =>
    by_cases absent : entry.physicalPage = noPhysicalPage
    · cases stored : fromStore entry with
      | true => simp [absent, stored]
      | false =>
        -- `Find` fails, so every frame is marked, and marked frames have owners.
        simp only [absent, stored, beq_self_eq_true, Bool.true_and, Bool.false_or, Bool.false_and,
          iff_true, Option.isNone_iff_eq_none]
        intro full number inside
        have set := BitMap.find_eq_none.mp full number (sound.bits ▸ inside)
        exact Kernel.names_iff.mpr (tracked.owned number inside set)
    · -- A page that has a frame needs no victim.
      simp [absent]

end Steps

/--
As long as `Find` hands out free frames and the store is used when there is none, every search finds
one pointer for each frame. The first step that uses the store beside a free frame breaks this.
-/
theorem victimTableComplete_iff {kernel : Kernel}
    (reached : Runs.Reachable step Boot SwapsWhenFull kernel) (action : Action) :
    VictimTableComplete kernel action ↔ kernel.swapsBesideFree action = false := by
  -- Soundness comes from the kernel alone, tracking needs the condition at every step.
  have both : Sound kernel ∧ Tracked kernel := by
    refine reached.invariant (fun kernel => Sound kernel ∧ Tracked kernel)
      (fun _ boot => ⟨boot.sound, boot.tracked⟩) ?_
    rintro before action after ⟨sound, tracked⟩ allowed done
    obtain ⟨stepped, sound'⟩ := sound.step done
    exact ⟨sound', tracked.stepped sound stepped allowed.1⟩
  exact both.2.complete_iff both.1 action

/-- Once the frames are full, the fault on one more page finds them all in the table. -/
theorem victimTableComplete_fillFrames :
    ∃ kernel, Runs.run step firstKernel fillFrames = .ok kernel ∧
      VictimTableComplete kernel (.load (BitVec.ofNat 32 (32 * pageSize)) 4) := by
  -- The frames are filled in order, and the condition holds at each step of that.
  obtain ⟨kernel, ran, seen⟩ := Runs.exists_of_runsTo
    (show Runs.runsTo step firstKernel fillFrames (fun kernel =>
      !kernel.swapsBesideFree (.load (BitVec.ofNat 32 (32 * pageSize)) 4)) = true by
        decide +kernel)
  have guarded : Runs.Guarded step SwapsWhenFull firstKernel fillFrames := by decide +kernel
  exact ⟨kernel, ran, (victimTableComplete_iff
    (Runs.Reachable.extend (.start firstKernel_boot) guarded ran) _).mpr (by simpa using seen)⟩

/-- A program of 34 pages. -/
def widerProgram : Executable where
  header := ⟨true, ⟨0#32, 40#32, 3328#32⟩, ⟨0#32, 0#32, 0#32⟩, ⟨0#32, 0#32, 0#32⟩⟩
  contents := List.replicate 3368 5#8
  fits := by rw [List.length_replicate]; omega

/-- Thread 1 visits all pages of the program, of which two share a frame in the end. -/
def visitAll : List Action := .exec 1 widerProgram 1000 :: (List.range 34).flatMap visit

/-- The next fault that needs a victim collects 33 pointers into an array with room for 32. -/
theorem not_victimTableComplete_visitAll :
    Boot firstKernel ∧ ∃ kernel, Runs.run step firstKernel visitAll = .ok kernel ∧
      ¬ VictimTableComplete kernel (.load 0#32 4) := by
  refine ⟨firstKernel_boot, ?_⟩
  obtain ⟨kernel, ran, seen⟩ := Runs.exists_of_runsTo
    (show Runs.runsTo step firstKernel visitAll (fun kernel =>
      kernel.searches (.load 0#32 4) &&
        decide (kernel.updataPageTables.invertedTable.residentRefs.length = 33)) = true by
        decide +kernel)
  simp only [Bool.and_eq_true, decide_eq_true_eq] at seen
  refine ⟨kernel, ran, fun complete => ?_⟩
  -- A thirty-third pointer would be written behind the array.
  obtain ⟨refs, found, length⟩ := complete seen.1
  rw [Kernel.getPhysicalPageTable, if_neg (by rw [seen.2]; decide)] at found
  cases found

end Nachos.Vm
