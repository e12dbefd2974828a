import Nachos.Lib.Runs
import Nachos.Vm.Kernel

/-! Page-table entries as the invariants see them: without the use bit, one pointer at a time. -/

namespace Nachos.Vm

section ClearUse

variable (entry : TranslationEntry)

/-- The page an entry is for does not depend on its use bit. -/
@[simp] theorem clearUse_virtualPage : (clearUse entry).virtualPage = entry.virtualPage := rfl

/-- The frame of an entry does not depend on its use bit. -/
@[simp] theorem clearUse_physicalPage : (clearUse entry).physicalPage = entry.physicalPage := rfl

/-- The valid bit does not depend on the use bit. -/
@[simp] theorem clearUse_valid : (clearUse entry).valid = entry.valid := rfl

/-- The protection bit does not depend on the use bit. -/
@[simp] theorem clearUse_readOnly : (clearUse entry).readOnly = entry.readOnly := rfl

/-- The dirty bit does not depend on the use bit. -/
@[simp] theorem clearUse_dirty : (clearUse entry).dirty = entry.dirty := rfl

/-- Entries that look alike without their use bits agree on everything else. -/
theorem clearUse_inj {first second : TranslationEntry} (same : clearUse first = clearUse second) :
    first.virtualPage = second.virtualPage ∧ first.physicalPage = second.physicalPage ∧
      first.valid = second.valid ∧ first.readOnly = second.readOnly ∧
      first.dirty = second.dirty := by
  simp only [clearUse, TranslationEntry.mk.injEq] at same
  exact ⟨same.1, same.2.1, same.2.2.1, same.2.2.2.1, same.2.2.2.2.2⟩

end ClearUse

namespace InvertedTable

/-- Changing one entry is visible through its own pointer only. -/
theorem entry_modifyEntry (table : InvertedTable) (ref other : PageRef)
    (change : TranslationEntry → TranslationEntry) :
    (table.modifyEntry ref change).entry other =
      if other = ref then (table.entry other).map change else table.entry other := by
  simp only [entry, modifyEntry, Map.get?_update]
  by_cases thread : other.thread = ref.thread
  · simp only [thread, if_true]
    cases found : table.get? ref.thread with
    | none => simp
    | some space =>
      simp only [Option.map_some, Option.bind_some, List.getElem?_modify]
      by_cases page : ref.page = other.page
      · have same : other = ref := by cases other; cases ref; simp_all
        simp [same]
      · have differ : other ≠ ref := fun equal => page (by rw [equal])
        simp [page, differ]
  · have differ : other ≠ ref := fun equal => thread (by rw [equal])
    simp [thread, differ]

/-- The entry of a page without its use bit, which only second chance looks at. -/
def view (table : InvertedTable) (ref : PageRef) : Option TranslationEntry :=
  (table.entry ref).map clearUse

/-- Where a thread's page table lies, and which file its pages come from. -/
def home (table : InvertedTable) (thread : Thread) : Option (Nat × Executable) :=
  (table.get? thread).map fun space => (space.address, space.file)

/-- Two tables that differ in use bits at most. -/
structure SameButUse (before after : InvertedTable) : Prop where
  keys : after.getKeys = before.getKeys
  homes : ∀ thread, after.home thread = before.home thread
  views : ∀ ref, after.view ref = before.view ref

/-- The address of a pointer depends only on where the page table lies. -/
theorem entryAddress_eq_home (table : InvertedTable) (ref : PageRef) :
    table.entryAddress ref = ((table.home ref.thread).map Prod.fst).getD 0 + ref.page := by
  simp [entryAddress, home, Function.comp_def]

/-- Pointers into page tables that stay where they are stay where they are. -/
theorem entryAddress_congr {before after : InvertedTable} {ref : PageRef}
    (same : after.home ref.thread = before.home ref.thread) :
    after.entryAddress ref = before.entryAddress ref := by
  rw [entryAddress_eq_home, entryAddress_eq_home, same]

/-- Changing an entry moves no page table. -/
@[simp] theorem home_modifyEntry (table : InvertedTable) (ref : PageRef)
    (change : TranslationEntry → TranslationEntry) (thread : Thread) :
    (table.modifyEntry ref change).home thread = table.home thread := by
  simp only [home, modifyEntry, Map.get?_update]
  split <;> simp [Function.comp_def]

/-- Changing an entry moves no pointer. -/
@[simp] theorem entryAddress_modifyEntry (table : InvertedTable) (ref other : PageRef)
    (change : TranslationEntry → TranslationEntry) :
    (table.modifyEntry ref change).entryAddress other = table.entryAddress other := by
  simp [entryAddress_eq_home]

/-- Changing an entry neither adds nor removes a thread. -/
@[simp] theorem getKeys_modifyEntry (table : InvertedTable) (ref : PageRef)
    (change : TranslationEntry → TranslationEntry) :
    (table.modifyEntry ref change).getKeys = table.getKeys := by
  simp [modifyEntry, Map.update]

/-- A change that does not depend on the use bit acts on views. -/
theorem view_modifyEntry (table : InvertedTable) (ref other : PageRef)
    {change : TranslationEntry → TranslationEntry}
    (blind : ∀ entry, clearUse (change (clearUse entry)) = clearUse (change entry)) :
    (table.modifyEntry ref change).view other =
      if other = ref then (table.view other).map (clearUse ∘ change) else table.view other := by
  simp only [view, entry_modifyEntry]
  split
  · cases table.entry other with
    | none => rfl
    | some entry => simp [blind]
  · rfl

/-- A visible entry and its view are the same up to the use bit. -/
theorem view_eq_some {table : InvertedTable} {ref : PageRef} {seen : TranslationEntry} :
    table.view ref = some seen ↔ ∃ entry, table.entry ref = some entry ∧ clearUse entry = seen := by
  simp [view]

/-- Changing no more than the use bit of one entry is not seen by the invariants. -/
theorem SameButUse.clear (table : InvertedTable) (ref : PageRef) :
    SameButUse table (table.modifyEntry ref clearUse) := by
  refine ⟨by simp, by simp, ?_⟩
  intro other
  rw [view_modifyEntry table ref other (fun _ => rfl)]
  split
  · rw [view, Option.map_map]
    rfl
  · rfl

/-- A table is the same as itself. -/
theorem SameButUse.refl (table : InvertedTable) : SameButUse table table :=
  ⟨rfl, fun _ => rfl, fun _ => rfl⟩

/-- Differences in use bits add up to differences in use bits. -/
theorem SameButUse.trans {first second third : InvertedTable} (left : SameButUse first second)
    (right : SameButUse second third) : SameButUse first third :=
  ⟨right.keys.trans left.keys, fun thread => (right.homes thread).trans (left.homes thread),
    fun ref => (right.views ref).trans (left.views ref)⟩

/-- Pointers keep their addresses when only use bits change. -/
theorem SameButUse.entryAddress {before after : InvertedTable} (same : SameButUse before after)
    (ref : PageRef) : after.entryAddress ref = before.entryAddress ref :=
  entryAddress_congr (same.homes ref.thread)

/-- The collected pointers are exactly those to pages in memory. -/
theorem mem_residentRefs {table : InvertedTable} {ref : PageRef} :
    ref ∈ table.residentRefs ↔
      ∃ entry, table.entry ref = some entry ∧ entry.physicalPage ≠ noPhysicalPage := by
  simp only [residentRefs, List.mem_flatMap, residentPages]
  constructor
  · rintro ⟨thread, _, member⟩
    cases found : table.get? thread with
    | none => simp [found] at member
    | some space =>
      simp only [found, List.mem_map, List.mem_filter] at member
      obtain ⟨page, ⟨_, resident⟩, rfl⟩ := member
      cases located : space.pageTable[page]? with
      | none => simp [located] at resident
      | some entry =>
        refine ⟨entry, by simp [InvertedTable.entry, found, located], ?_⟩
        simpa [located] using resident
  · rintro ⟨entry, located, resident⟩
    obtain ⟨thread, page⟩ := ref
    cases found : table.get? thread with
    | none => simp [InvertedTable.entry, found] at located
    | some space =>
      simp only [InvertedTable.entry, found, Option.bind_some] at located
      refine ⟨thread, (Map.mem_getKeys table thread).mpr ⟨space, found⟩, ?_⟩
      have inside : page < space.pageTable.length := (List.getElem?_eq_some_iff.mp located).1
      simp only [found, List.mem_map, List.mem_filter, List.mem_range]
      exact ⟨page, ⟨inside, by simpa [located] using resident⟩, rfl⟩

end InvertedTable

/-- What all the TLB entries together write into a page-table entry. -/
def syncAll (tlb : List TranslationEntry) (entry : TranslationEntry) : TranslationEntry :=
  tlb.foldl syncEntry entry

/-- Only the dirty and valid bits are ever copied. -/
theorem syncAll_eq (tlb : List TranslationEntry) (entry : TranslationEntry) :
    ∃ dirty valid, syncAll tlb entry = { entry with dirty := dirty, valid := valid } := by
  unfold syncAll
  induction tlb generalizing entry with
  | nil => exact ⟨entry.dirty, entry.valid, rfl⟩
  | cons cached rest ih =>
    obtain ⟨dirty, valid, same⟩ := ih (syncEntry entry cached)
    refine ⟨dirty, valid, ?_⟩
    rw [List.foldl_cons, same]
    unfold syncEntry
    split <;> rfl

/-- Copying bits from the TLB never moves a page. -/
@[simp] theorem syncAll_physicalPage (tlb : List TranslationEntry) (entry : TranslationEntry) :
    (syncAll tlb entry).physicalPage = entry.physicalPage := by
  obtain ⟨dirty, valid, same⟩ := syncAll_eq tlb entry
  rw [same]

/-- Copying bits from the TLB never renames a page. -/
@[simp] theorem syncAll_virtualPage (tlb : List TranslationEntry) (entry : TranslationEntry) :
    (syncAll tlb entry).virtualPage = entry.virtualPage := by
  obtain ⟨dirty, valid, same⟩ := syncAll_eq tlb entry
  rw [same]

/-- Copying bits from the TLB never protects a page. -/
@[simp] theorem syncAll_readOnly (tlb : List TranslationEntry) (entry : TranslationEntry) :
    (syncAll tlb entry).readOnly = entry.readOnly := by
  obtain ⟨dirty, valid, same⟩ := syncAll_eq tlb entry
  rw [same]

/-- A page whose frame no TLB entry names keeps all its bits. -/
theorem syncAll_untouched {tlb : List TranslationEntry} {entry : TranslationEntry}
    (unnamed : ∀ cached ∈ tlb, cached.physicalPage ≠ entry.physicalPage) :
    syncAll tlb entry = entry := by
  unfold syncAll
  induction tlb with
  | nil => rfl
  | cons cached rest ih =>
    have differ : entry.physicalPage ≠ cached.physicalPage :=
      fun equal => unnamed cached (by simp) equal.symm
    rw [List.foldl_cons, syncEntry, if_neg differ]
    exact ih fun other member => unnamed other (by simp [member])

/-- An entry either keeps its bits or takes them from a TLB entry that names its frame. -/
theorem syncAll_cases (tlb : List TranslationEntry) (entry : TranslationEntry) :
    syncAll tlb entry = entry ∨ ∃ cached ∈ tlb, cached.physicalPage = entry.physicalPage ∧
      syncAll tlb entry = { entry with dirty := cached.dirty, valid := cached.valid } := by
  unfold syncAll
  induction tlb generalizing entry with
  | nil => exact .inl rfl
  | cons cached rest ih =>
    rw [List.foldl_cons, syncEntry]
    by_cases named : entry.physicalPage = cached.physicalPage
    · rw [if_pos named]
      rcases ih { entry with dirty := cached.dirty, valid := cached.valid } with
        same | ⟨later, member, frame, same⟩
      · exact .inr ⟨cached, by simp, named.symm, same⟩
      · exact .inr ⟨later, by simp [member], frame, same⟩
    · rw [if_neg named]
      rcases ih entry with same | ⟨later, member, frame, same⟩
      · exact .inl same
      · exact .inr ⟨later, by simp [member], frame, same⟩

/-- The copied bits do not depend on the use bit. -/
theorem clearUse_syncAll (tlb : List TranslationEntry) (entry : TranslationEntry) :
    clearUse (syncAll tlb entry) = syncAll tlb (clearUse entry) := by
  unfold syncAll
  induction tlb generalizing entry with
  | nil => rfl
  | cons cached rest ih =>
    rw [List.foldl_cons, List.foldl_cons, ih]
    congr 1
    unfold syncEntry clearUse
    split <;> simp_all

namespace Kernel

/-- Every entry is synchronised with the whole TLB. -/
theorem entry_updataPageTables (kernel : Kernel) (ref : PageRef) :
    kernel.updataPageTables.invertedTable.entry ref =
      (kernel.invertedTable.entry ref).map (syncAll kernel.tlb) := by
  -- The outer loop takes the TLB entries in order, so the induction is over the TLB.
  unfold updataPageTables syncAll
  generalize kernel.invertedTable = table
  induction kernel.tlb generalizing table with
  | nil => simp
  | cons cached rest ih =>
    rw [List.foldl_cons, ih]
    simp only [InvertedTable.entry, syncTables, Map.get?_mapObjects]
    cases found : table.get? ref.thread with
    | none => simp
    | some space => cases located : space.pageTable[ref.page]? <;> simp [located]

/-- Synchronising moves no page table. -/
@[simp] theorem home_updataPageTables (kernel : Kernel) (thread : Thread) :
    kernel.updataPageTables.invertedTable.home thread = kernel.invertedTable.home thread := by
  unfold updataPageTables
  generalize kernel.invertedTable = table
  induction kernel.tlb generalizing table with
  | nil => rfl
  | cons cached rest ih =>
    rw [List.foldl_cons]
    simp only at ih ⊢
    rw [ih]
    simp [InvertedTable.home, syncTables, Map.get?_mapObjects, Function.comp_def]

/-- Synchronising neither adds nor removes a thread. -/
@[simp] theorem getKeys_updataPageTables (kernel : Kernel) :
    kernel.updataPageTables.invertedTable.getKeys = kernel.invertedTable.getKeys := by
  unfold updataPageTables
  generalize kernel.invertedTable = table
  induction kernel.tlb generalizing table with
  | nil => rfl
  | cons cached rest ih =>
    rw [List.foldl_cons]
    simp only at ih ⊢
    rw [ih]
    simp [syncTables]

/-- Synchronising moves no pointer. -/
@[simp] theorem entryAddress_updataPageTables (kernel : Kernel) (ref : PageRef) :
    kernel.updataPageTables.invertedTable.entryAddress ref =
      kernel.invertedTable.entryAddress ref := by
  simp [InvertedTable.entryAddress_eq_home]

/-- Views are synchronised like the entries behind them. -/
theorem view_updataPageTables (kernel : Kernel) (ref : PageRef) :
    kernel.updataPageTables.invertedTable.view ref =
      (kernel.invertedTable.view ref).map (syncAll kernel.tlb) := by
  simp only [InvertedTable.view, entry_updataPageTables, Option.map_map]
  congr 1
  funext entry
  exact clearUse_syncAll kernel.tlb entry

end Kernel

end Nachos.Vm
