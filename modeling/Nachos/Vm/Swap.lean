import Nachos.Vm.Coherence
import Nachos.Vm.Flat

/-! What an evicted page looks like when it comes back. -/

namespace Nachos.Vm

/-- What happens to the bytes of pages. -/
inductive Paging where
  /-- An address space was created, and none of its pages has been evicted. -/
  | created (thread : Thread)
  /-- A page left memory with these bytes. -/
  | evicted (page : PageRef) (contents : Page)
  /-- A page with this initial image came into memory with these bytes. -/
  | installed (page : PageRef) (initial contents : Page)

/-- The bytes of every page at its most recent eviction. -/
def Paging.apply (evictions : PageRef → Option Page) : Paging → PageRef → Option Page
  | .created thread => fun ref => if ref.thread = thread then none else evictions ref
  | .evicted page contents => fun ref => if ref = page then some contents else evictions ref
  | .installed _ _ _ => evictions

/-- A page comes back as it was evicted, and comes first with its initial image. -/
def Paging.Faithful (evictions : PageRef → Option Page) : Paging → Prop
  | .installed page initial contents => contents = (evictions page).getD initial
  | _ => True

/-- The page that the fault of an action brings into memory. -/
def Kernel.absentPage (kernel : Kernel) (action : Action) : Option PageRef :=
  match kernel.currentThread, action.reference, kernel.faultingEntry action with
  | some thread, some (addr, _), some entry =>
    if entry.physicalPage = noPhysicalPage then some ⟨thread, virtualPageNumber addr⟩ else none
  | _, _, _ => none

/-- The bytes of the frame a page is in. -/
def Kernel.bytesOf (kernel : Kernel) (page : PageRef) : Page :=
  match kernel.invertedTable.frameOf page with
  | some physicalPage => kernel.frame physicalPage.toNat
  | none => zeroPage

/-- The bytes a page has in the executable of its thread, and zeros past the executable. -/
def Kernel.initialOf (kernel : Kernel) (page : PageRef) : Page :=
  match kernel.invertedTable.home page.thread with
  | some (_, file) => Blocks.block pageSize (image file) page.page
  | none => zeroPage

/-- The thread that an action creates an address space for. -/
def Action.creates : Action → Option Thread
  | .exec thread _ _ => some thread
  | .fork thread _ => some thread
  | _ => none

/-- The pages that a step moves, the victim before the page that takes its frame. -/
def observePaging (before : Kernel) (action : Action) (after : Kernel) : List Paging :=
  match action.creates with
  | some thread => [.created thread]
  | none =>
    match before.absentPage action with
    | none => []
    | some page =>
      (before.evicts action).toList.map (fun victim => .evicted victim (before.bytesOf victim)) ++
        [.installed page (before.initialOf page) (after.bytesOf page)]

/--
The store and the dirty bits tell the truth about the pages this step moves.

A page that is fetched from the backing store has exactly one copy there, and a victim whose dirty
bit is clear still holds its initial image.
-/
def SwapTruthful (kernel : Kernel) (action : Action) : Prop :=
  (∀ page ∈ kernel.absentPage action, ∀ entry ∈ kernel.faultingEntry action,
    fromStore entry = true →
    (kernel.backingStore.copies (kernel.invertedTable.entryAddress page)).length = 1) ∧
  ∀ victim ∈ kernel.evicts action,
    ∀ entry ∈ kernel.updataPageTables.invertedTable.entry victim, entry.dirty = false →
      kernel.bytesOf victim = kernel.initialOf victim

/-- Pages are compared byte by byte. -/
instance (first second : Page) : Decidable (first = second) :=
  decidable_of_iff (∀ offset, first offset = second offset) funext_iff.symm

instance (kernel : Kernel) (action : Action) : Decidable (SwapTruthful kernel action) :=
  inferInstanceAs (Decidable (_ ∧ _))

/--
The TLB before its first four faults: only the slots that were filled name frames.

As long as this lasts no more frames than slots are in use, and nothing has been evicted.
-/
structure Early (kernel : Kernel) : Prop where
  unfilled : ∀ (slot : Nat) (cached : TranslationEntry), kernel.tlb[slot]? = some cached →
    kernel.tlbIndex ≤ slot → cached.valid = false
  filled : ∀ (slot : Nat) (cached : TranslationEntry), kernel.tlb[slot]? = some cached →
    slot < kernel.tlbIndex → cached.physicalPage ≠ noPhysicalPage
  unmarked : ∀ number, kernel.tlbIndex ≤ number → number < numPhysPages →
    kernel.physicalPageMap.testBit number = false
  unloaded : Unloaded kernel

/-- No slot of the TLB can be taken for one that caches pages out of memory. -/
def Settled (kernel : Kernel) : Prop :=
  (∀ cached ∈ kernel.tlb, cached.physicalPage ≠ noPhysicalPage) ∨ Early kernel

/-- The system starts before its first fault. -/
theorem Boot.settled {kernel : Kernel} (boot : Boot kernel) : Settled kernel := by
  obtain ⟨garbage, covers, fresh⟩ := boot.freshMap
  refine .inr ⟨?_, ?_, ?_, ?_⟩
  · intro slot cached located _
    exact boot.tlbInvalid cached (List.mem_of_getElem? located)
  · intro slot cached _ before
    simp [boot.tlbStart] at before
  · intro number _ inside
    rw [fresh, BitMap.testBit_new covers inside]
  · intro ref entry seen
    simp [boot.noSpaces, InvertedTable.view_eq] at seen

section Early

variable {before after : Kernel}

/-- Early on, changes of the tables that revive no page leave it early. -/
theorem Early.kept (early : Early before)
    (valids : ∀ (slot : Nat) (cached : TranslationEntry), after.tlb[slot]? = some cached →
      ∃ old, before.tlb[slot]? = some old ∧ cached.physicalPage = old.physicalPage ∧
        (old.valid = false → cached.valid = false))
    (index : after.tlbIndex = before.tlbIndex)
    (marks : ∀ number, number < numPhysPages → before.physicalPageMap.testBit number = false →
      after.physicalPageMap.testBit number = false)
    (unloaded : Unloaded after) : Early after := by
  refine ⟨?_, ?_, ?_, unloaded⟩
  · intro slot cached located late
    obtain ⟨old, found, -, invalid⟩ := valids slot cached located
    exact invalid (early.unfilled slot old found (by rw [← index]; exact late))
  · intro slot cached located late
    obtain ⟨old, found, frames, -⟩ := valids slot cached located
    rw [frames]
    exact early.filled slot old found (by rw [← index]; exact late)
  · intro number late inside
    exact marks number inside (early.unmarked number (by rw [← index]; exact late) inside)

/-- A flushed TLB still names the same frames. -/
theorem slot_flushed {tlb : List TranslationEntry} {slot : Nat} {cached : TranslationEntry}
    (located : (flushed tlb)[slot]? = some cached) :
    ∃ old, tlb[slot]? = some old ∧ cached.physicalPage = old.physicalPage ∧
      (old.valid = false → cached.valid = false) := by
  simp only [flushed, List.getElem?_map, Option.map_eq_some_iff] at located
  obtain ⟨old, found, rfl⟩ := located
  exact ⟨old, found, rfl, fun _ => rfl⟩

/-- Early faults fill the slots in order and take the frames in order. -/
theorem Early.faulted {page : PageRef} {file : Executable} {slot number : Nat} {origin : Origin}
    (early : Early before) (sound : Sound before)
    (faulted : Faulted before after page file slot number origin) :
    Settled after := by
  obtain ⟨entry, seen, reason⟩ := faulted.justified
  have inside := sound.tlbInside
  have small : before.tlbIndex < numPhysPages := Nat.lt_of_lt_of_le inside (by decide)
  -- The slot under the index is invalid, so the search stops there.
  have here : slot = before.tlbIndex := by
    obtain ⟨searched, loaded, search, -⟩ := faulted.tlb
    have within : before.tlbIndex < before.tlb.length := by rw [sound.tlbLength]; exact inside
    have located := List.getElem?_eq_getElem within
    have invalid := early.unfilled _ _ located (Nat.le_refl _)
    have stops : secondChanceTlb before.tlb before.tlbIndex = .ok (before.tlb, before.tlbIndex) :=
      secondChanceLoop_here located (by simp [invalid])
    have both := search.symm.trans stops
    simp only [Except.ok.injEq, Prod.mk.injEq] at both
    exact both.2
  -- Nothing is valid out of memory and the frame map is not full, so nothing is evicted.
  have unstored : (syncAll before.tlb entry).physicalPage = noPhysicalPage →
      fromStore (syncAll before.tlb entry) = false := by
    intro absent
    rw [syncAll_physicalPage] at absent
    cases valid : (syncAll before.tlb entry).valid with
    | false => simp [fromStore, valid]
    | true =>
      rw [sound.syncAll_absent absent valid, early.unloaded page entry seen absent] at valid
      simp at valid
  have calm : (origin = .resident ∨ origin = .free) ∧ origin.victim = none ∧
      ∀ mark, before.tlbIndex < mark → mark < numPhysPages →
        after.physicalPageMap.testBit mark = false := by
    cases origin with
    | resident =>
      refine ⟨.inl rfl, rfl, ?_⟩
      intro mark late within
      rw [faulted.map]
      exact early.unmarked mark (Nat.le_of_lt late) within
    | free =>
      refine ⟨.inr rfl, rfl, ?_⟩
      intro mark late within
      obtain ⟨-, -, clear, first⟩ := reason
      have low : number ≤ before.tlbIndex := by
        apply Nat.le_of_not_lt
        intro high
        have set := first before.tlbIndex high
        simp [early.unmarked _ (Nat.le_refl _) small] at set
      have differ : number ≠ mark := by omega
      rw [faulted.map, Origin.map, BitMap.testBit_markBit _ _ _ (by rw [sound.bits]; exact within)]
      simp [differ, early.unmarked mark (Nat.le_of_lt late) within]
    | evicted victim =>
      obtain ⟨-, -, full⟩ := reason
      have set := BitMap.find_eq_none.mp full before.tlbIndex (by rw [sound.bits]; exact small)
      simp [early.unmarked _ (Nat.le_refl _) small] at set
    | swapped victim contents =>
      obtain ⟨absent, stored, -⟩ := reason
      simp [unstored absent] at stored
  obtain ⟨-, nobody, marks⟩ := calm
  have filled : ∀ (place : Nat) (cached : TranslationEntry), after.tlb[place]? = some cached →
      place ≤ before.tlbIndex → cached.physicalPage ≠ noPhysicalPage := by
    intro place cached located low
    rcases Nat.lt_or_eq_of_le low with lower | same
    · obtain ⟨same, -⟩ | ⟨-, old, found, alike⟩ := faulted.slots located
      · omega
      · obtain ⟨-, frames, -⟩ := clearUse_inj alike
        rw [← frames]
        exact early.filled place old found lower
    · obtain ⟨-, framed, -⟩ := faulted.new_slot sound (by rw [here, ← same]; exact located)
      rw [framed]
      exact natCast_ne_noPhysicalPage number
  rcases Nat.lt_or_ge (before.tlbIndex + 1) tlbSize with more | last
  · -- There are slots left to fill.
    have index : after.tlbIndex = before.tlbIndex + 1 := by
      rw [faulted.tlbIndex, here, Nat.mod_eq_of_lt more]
    refine .inr ⟨?_, ?_, ?_, ?_⟩
    · intro place cached located late
      obtain ⟨same, -⟩ | ⟨-, old, found, alike⟩ := faulted.slots located
      · omega
      · obtain ⟨-, -, valids, -⟩ := clearUse_inj alike
        rw [← valids]
        exact early.unfilled place old found (by omega)
    · intro place cached located low
      exact filled place cached located (by omega)
    · intro mark late within
      exact marks mark (by omega) within
    · exact early.unloaded.faulted sound faulted nobody
  · -- This was the last slot.
    refine .inl ?_
    intro cached member
    obtain ⟨place, located⟩ := List.getElem?_of_mem member
    have within := (List.getElem?_eq_some_iff.mp located).1
    obtain ⟨searched, loaded, search, tlb, -⟩ := faulted.tlb
    rw [tlb, List.length_set, (secondChanceTlb_spec search).1.length, sound.tlbLength] at within
    exact filled place cached located (by omega)

end Early

/-- Saving or synchronising leaves a page out of memory alone, or finds and leaves it invalid. -/
theorem Settled.syncAll_absent {kernel : Kernel} (settled : Settled kernel) (sound : Sound kernel)
    {ref : PageRef} {entry : TranslationEntry} (seen : kernel.invertedTable.view ref = some entry)
    (absent : entry.physicalPage = noPhysicalPage) :
    syncAll kernel.tlb entry = entry ∨
      (entry.valid = false ∧ (syncAll kernel.tlb entry).valid = false) := by
  rcases settled with named | early
  · left
    apply syncAll_untouched
    intro cached member
    rw [absent]
    exact named cached member
  · have invalid := early.unloaded ref entry seen absent
    cases valid : (syncAll kernel.tlb entry).valid with
    | false => exact .inr ⟨invalid, rfl⟩
    | true => exact .inl (sound.syncAll_absent absent valid)

/-- The same for the thread that is left. -/
theorem Settled.saved_absent {kernel : Kernel} (settled : Settled kernel) (sound : Sound kernel)
    {ref : PageRef} {entry : TranslationEntry} (seen : kernel.invertedTable.view ref = some entry)
    (absent : entry.physicalPage = noPhysicalPage) :
    kernel.saved entry = entry ∨ (entry.valid = false ∧ (kernel.saved entry).valid = false) := by
  unfold Kernel.saved
  cases kernel.currentThread with
  | none => exact .inl rfl
  | some thread => exact settled.syncAll_absent sound seen absent

/-- Every step keeps the TLB settled or early. -/
theorem Settled.stepped {before after : Kernel} {action : Action} (settled : Settled before)
    (sound : Sound before) (stepped : Stepped before action after) : Settled after := by
  have flush : ∀ {tlb : List TranslationEntry}, tlb = flushed before.tlb →
      (∀ cached ∈ before.tlb, cached.physicalPage ≠ noPhysicalPage) →
      ∀ cached ∈ tlb, cached.physicalPage ≠ noPhysicalPage := by
    rintro _ rfl named cached member
    obtain ⟨slot, located⟩ := List.getElem?_of_mem member
    obtain ⟨old, found, frames, -⟩ := slot_flushed located
    rw [frames]
    exact named old (List.mem_of_getElem? found)
  have touch : ∀ {slot writing}, ∀ (place : Nat) (cached : TranslationEntry),
      (before.tlb.modify slot (·.touch writing))[place]? = some cached →
      ∃ old, before.tlb[place]? = some old ∧ cached.physicalPage = old.physicalPage ∧
        (old.valid = false → cached.valid = false) := by
    intro slot writing place cached located
    obtain ⟨old, found, -, frames, valids, -⟩ := slot_touch located
    exact ⟨old, found, frames, fun invalid => by rw [valids, invalid]⟩
  have hit : ∀ {hit : Kernel} {slot writing},
      hit.tlb = before.tlb.modify slot (·.touch writing) → hit.tlbIndex = before.tlbIndex →
      hit.physicalPageMap = before.physicalPageMap → hit.invertedTable = before.invertedTable →
      Settled hit := by
    intro hit slot writing tlb index map tables
    rcases settled with named | early
    · left
      intro cached member
      rw [tlb] at member
      obtain ⟨place, located⟩ := List.getElem?_of_mem member
      obtain ⟨old, found, frames, -⟩ := touch place cached located
      rw [frames]
      exact named old (List.mem_of_getElem? found)
    · refine .inr (early.kept ?_ index ?_ ?_)
      · rw [tlb]
        exact touch
      · rw [map]
        exact fun _ _ clear => clear
      · unfold Unloaded
        rw [tables]
        exact early.unloaded
  cases stepped with
  | exec magic created tlb running storage =>
    rcases settled with named | early
    · exact .inl (flush tlb named)
    · refine .inr (early.kept ?_ storage.tlbIndex ?_ ?_)
      · rw [tlb]
        exact fun _ _ located => slot_flushed located
      · rw [storage.map]
        exact fun _ _ clear => clear
      · exact early.unloaded.created sound.harmless created
  | fork father filed pages created tlb running storage =>
    rcases settled with named | early
    · left
      rw [tlb]
      exact named
    · refine .inr (early.kept ?_ storage.tlbIndex ?_ ?_)
      · rw [tlb]
        exact fun _ cached located => ⟨cached, located, rfl, id⟩
      · rw [storage.map]
        exact fun _ _ clear => clear
      · exact early.unloaded.created .id created
  | @exit thread _ running destroyed idle =>
    rcases settled with named | early
    · left
      rw [destroyed.tlb]
      exact named
    · refine .inr (early.kept ?_ destroyed.tlbIndex ?_ ?_)
      · rw [destroyed.tlb]
        exact fun _ cached located => ⟨cached, located, rfl, id⟩
      · intro number inside clear
        by_cases occupied : before.invertedTable.Occupies thread number
        · exact (destroyed.cleared number occupied).2
        · rw [(destroyed.kept number inside occupied).2, clear]
      · exact early.unloaded.destroyed destroyed
  | switchTo member views keys homes tlb running storage =>
    rcases settled with named | early
    · exact .inl (flush tlb named)
    · refine .inr (early.kept ?_ storage.tlbIndex ?_ ?_)
      · rw [tlb]
        exact fun _ _ located => slot_flushed located
      · rw [storage.map]
        exact fun _ _ clear => clear
      · exact early.unloaded.changed sound.harmless views
  | load running found decoded => exact hit rfl rfl rfl rfl
  | store running found encoded => exact hit rfl rfl rfl rfl
  | fault running reference missed located faulted =>
    rcases settled with named | early
    · left
      intro cached member
      obtain ⟨place, there⟩ := List.getElem?_of_mem member
      obtain ⟨rfl, -⟩ | ⟨-, old, found, alike⟩ := faulted.slots there
      · obtain ⟨-, framed, -⟩ := faulted.new_slot sound there
        rw [framed]
        exact natCast_ne_noPhysicalPage _
      · obtain ⟨-, frames, -⟩ := clearUse_inj alike
        rw [← frames]
        exact named old (List.mem_of_getElem? found)
    · exact early.faulted sound faulted

/--
What the backing store knows about a page that is out of memory.

An evicted page is valid and its newest copy holds the bytes it was evicted with, which are its
initial image if its dirty bit is clear. A page that was never evicted is not valid.
-/
structure RemembersPage (kernel : Kernel) (evictions : PageRef → Option Page) (ref : PageRef)
    (entry : TranslationEntry) : Prop where
  evicted : entry.valid = true → ∃ contents, evictions ref = some contents ∧
    (kernel.backingStore.copies (kernel.invertedTable.entryAddress ref)).getLast? =
      some contents ∧ (entry.dirty = false → contents = kernel.initialOf ref)
  fresh : entry.valid = false → evictions ref = none

/-- Every page that is out of memory is remembered. -/
def Remembers (kernel : Kernel) (evictions : PageRef → Option Page) : Prop :=
  ∀ ref entry, kernel.invertedTable.view ref = some entry →
    entry.physicalPage = noPhysicalPage → RemembersPage kernel evictions ref entry

/-- A change leaves pages out of memory alone, or finds and leaves them invalid. -/
def Steady (kernel : Kernel) (change : TranslationEntry → TranslationEntry) : Prop :=
  ∀ ref entry, kernel.invertedTable.view ref = some entry → entry.physicalPage = noPhysicalPage →
    change entry = entry ∨ (entry.valid = false ∧ (change entry).valid = false)

section Remembers

variable {before after : Kernel} {evictions : PageRef → Option Page}
  {change : TranslationEntry → TranslationEntry}

/-- The initial image of a page depends on the file of its thread. -/
theorem Kernel.initialOf_congr {ref : PageRef}
    (home : after.invertedTable.home ref.thread = before.invertedTable.home ref.thread) :
    after.initialOf ref = before.initialOf ref := by
  unfold initialOf
  rw [home]

/-- A page that a steady change went through is remembered if its copies are still there. -/
theorem Remembers.kept (remembers : Remembers before evictions) (steady : Steady before change)
    {ref : PageRef} {old : TranslationEntry} (found : before.invertedTable.view ref = some old)
    (absent : old.physicalPage = noPhysicalPage)
    (copies : after.backingStore.copies (after.invertedTable.entryAddress ref) =
      before.backingStore.copies (before.invertedTable.entryAddress ref))
    (home : after.invertedTable.home ref.thread = before.invertedTable.home ref.thread) :
    RemembersPage after evictions ref (change old) := by
  obtain ⟨evicted, fresh⟩ := remembers ref old found absent
  rcases steady ref old found absent with same | ⟨invalid, invalid'⟩
  · rw [same]
    refine ⟨?_, fresh⟩
    rw [copies, Kernel.initialOf_congr home]
    exact evicted
  · refine ⟨fun valid => ?_, fun _ => fresh invalid⟩
    simp [invalid'] at valid

/-- Harmless changes of the tables forget nothing. -/
theorem Remembers.changed (remembers : Remembers before evictions) (harmless : Harmless change)
    (steady : Steady before change)
    (views : ∀ ref, after.invertedTable.view ref = (before.invertedTable.view ref).map change)
    (homes : ∀ other, after.invertedTable.home other = before.invertedTable.home other)
    (store : after.backingStore = before.backingStore) : Remembers after evictions := by
  intro ref entry seen absent
  rw [views, Option.map_eq_some_iff] at seen
  obtain ⟨old, found, rfl⟩ := seen
  rw [harmless.physicalPage] at absent
  refine remembers.kept steady found absent ?_ (homes ref.thread)
  rw [store, InvertedTable.entryAddress_congr (homes ref.thread)]

/-- A new address space has nothing to remember. -/
theorem Remembers.created {thread : Thread} {count address : Nat} {file : Executable}
    (remembers : Remembers before evictions) (harmless : Harmless change)
    (steady : Steady before change)
    (created : Created before.invertedTable after.invertedTable thread count address file change)
    (store : after.backingStore = before.backingStore) :
    Remembers after ((Paging.created thread).apply evictions) := by
  intro ref entry seen absent
  have home := created.homes ref.thread
  rcases created.view_cases seen with ⟨own, -, rfl, -⟩ | ⟨other, old, found, rfl, place⟩
  · exact ⟨by simp [freshEntry], by simp [Paging.apply, own]⟩
  · rw [if_neg other] at home
    rw [harmless.physicalPage] at absent
    obtain ⟨evicted, fresh⟩ :=
      remembers.kept steady found absent (by rw [store, place]) home
    exact ⟨by simpa only [Paging.apply, other, if_false] using evicted,
      by simpa only [Paging.apply, other, if_false] using fresh⟩

/-- An exit forgets nothing about the survivors. -/
theorem Remembers.destroyed {thread : Thread} (remembers : Remembers before evictions)
    (sound : Sound before) (destroyed : Destroyed before after thread) :
    Remembers after evictions := by
  intro ref entry seen absent
  have home := destroyed.homes ref.thread
  rw [destroyed.views] at seen
  split at seen
  · simp at seen
  · rename_i other
    rw [if_neg other] at home
    have steady : Steady before id := fun _ _ _ _ => .inl rfl
    refine remembers.kept steady seen absent ?_ home
    rw [InvertedTable.entryAddress_congr home, destroyed.stored]
    -- Pages of different threads have different keys.
    intro page gone visible _ same
    have equal := sound.apart ⟨thread, page⟩ ref gone entry visible seen same
    exact other (by rw [← equal])

end Remembers

section Faulted

variable {before after : Kernel} {thread : Thread} {action : Action} {addr : BitVec 32}
  {size : Nat} {home : Nat × Executable} {slot number : Nat} {origin : Origin}

/-- The page a fault brings in has no frame before it. -/
theorem Faulted.absentPage (running : before.currentThread = some thread)
    (reference : action.reference = some (addr, size)) (missed : Missed before addr size)
    (faulted : Faulted before after ⟨thread, virtualPageNumber addr⟩ home.2 slot number origin) :
    (origin = .resident ∧ before.absentPage action = none) ∨
      (origin ≠ .resident ∧
        before.absentPage action = some ⟨thread, virtualPageNumber addr⟩) := by
  obtain ⟨seen, shown, -⟩ := faulted.justified
  obtain ⟨entry, found, rfl⟩ := InvertedTable.view_eq_some.mp shown
  have looked : before.faultingEntry action = some (syncAll before.tlb entry) := by
    rw [missed.faultingEntry running reference, Kernel.entry_updataPageTables, found]
    rfl
  simp only [Kernel.absentPage, running, reference, looked, syncAll_physicalPage]
  rcases faulted.frameOf_page with ⟨own, same⟩ | ⟨none, differ⟩
  · refine .inl ⟨same, if_neg ?_⟩
    rw [InvertedTable.frameOf, found, Option.map_some, Option.some.injEq] at own
    rw [own]
    exact natCast_ne_noPhysicalPage number
  · refine .inr ⟨differ, if_pos ?_⟩
    rw [InvertedTable.frameOf, found, Option.map_some, Option.some.injEq] at none
    exact none

/-- A fault that brings a page in shows the victim, if there is one, and then the page. -/
theorem Faulted.shows_paging (sound : Sound before)
    (running : before.currentThread = some thread)
    (reference : action.reference = some (addr, size)) (missed : Missed before addr size)
    (faulted : Faulted before after ⟨thread, virtualPageNumber addr⟩ home.2 slot number origin) :
    (origin = .resident ∧ observePaging before action after = []) ∨
      (origin ≠ .resident ∧ observePaging before action after =
        origin.victim.toList.map (fun victim => .evicted victim (before.frame number)) ++
          [.installed ⟨thread, virtualPageNumber addr⟩
            (before.initialOf ⟨thread, virtualPageNumber addr⟩) (after.frame number)]) := by
  have page : observePaging before action after =
      match before.absentPage action with
      | none => []
      | some page =>
        (before.evicts action).toList.map
          (fun victim => .evicted victim (before.bytesOf victim)) ++
          [.installed page (before.initialOf page) (after.bytesOf page)] := by
    cases action with
    | load | store => rfl
    | exec | fork | exit | switchTo => simp [Action.reference] at reference
  have arrived : after.bytesOf ⟨thread, virtualPageNumber addr⟩ = after.frame number := by
    simp [Kernel.bytesOf, faulted.frameOf]
  have left : ∀ victim, origin.victim = some victim →
      before.bytesOf victim = before.frame number := by
    intro victim lost
    simp [Kernel.bytesOf, faulted.frameOf_victim lost]
  rcases faulted.absentPage running reference missed with ⟨same, none⟩ | ⟨differ, some_⟩
  · exact .inl ⟨same, by rw [page, none]⟩
  · refine .inr ⟨differ, ?_⟩
    rw [page, some_, faulted.evicts sound running reference missed]
    simp only [arrived]
    congr 1
    cases lost : origin.victim with
    | none => rfl
    | some victim => simp [left victim lost]

/-- A truthful fault brings a page in as it was evicted. -/
theorem Remembers.installed {evictions : PageRef → Option Page}
    (remembers : Remembers before evictions) (sound : Sound before) (settled : Settled before)
    (running : before.currentThread = some thread)
    (reference : action.reference = some (addr, size)) (missed : Missed before addr size)
    (truthful : SwapTruthful before action)
    (located : before.invertedTable.home thread = some home)
    (faulted : Faulted before after ⟨thread, virtualPageNumber addr⟩ home.2 slot number origin)
    (moved : origin ≠ .resident) :
    after.frame number = (evictions ⟨thread, virtualPageNumber addr⟩).getD
      (before.initialOf ⟨thread, virtualPageNumber addr⟩) := by
  obtain ⟨seen, shown, reason⟩ := faulted.justified
  have initial : before.initialOf ⟨thread, virtualPageNumber addr⟩ =
      initialPage home.2 (virtualPageNumber addr) := by
    simp only [Kernel.initialOf, located]
    exact block_image home.2 (virtualPageNumber addr)
  have absent : seen.physicalPage = noPhysicalPage := by
    rcases faulted.frameOf_page with ⟨-, same⟩ | ⟨none, -⟩
    · exact absurd same moved
    · simpa [InvertedTable.frameOf_eq, shown] using none
  obtain ⟨evicted, fresh⟩ := remembers _ seen shown absent
  have steady := settled.syncAll_absent sound shown absent
  -- From the executable comes the right page, since a clean victim still was its initial image.
  have loads : fromStore (syncAll before.tlb seen) = false →
      initialPage home.2 (virtualPageNumber addr) =
        (evictions ⟨thread, virtualPageNumber addr⟩).getD
          (before.initialOf ⟨thread, virtualPageNumber addr⟩) := by
    intro unstored
    cases valid : seen.valid with
    | false => rw [fresh valid, Option.getD_none, initial]
    | true =>
      rcases steady with same | ⟨invalid, -⟩
      · obtain ⟨contents, gone, -, clean⟩ := evicted valid
        have open_ := sound.writable _ seen shown
        rw [same] at unstored
        have bit : seen.dirty = false := by simpa [fromStore, valid, open_] using unstored
        rw [gone, Option.getD_some, clean bit, initial]
      · simp [valid] at invalid
  rw [Kernel.frame, faulted.memory]
  cases origin with
  | resident => exact absurd rfl moved
  | free => rw [Origin.memory, Blocks.block_setBlock_same, loads reason.2.1]
  | evicted victim => rw [Origin.memory, Blocks.block_setBlock_same, loads reason.2.1]
  | swapped victim contents =>
    -- The oldest copy is also the newest one.
    obtain ⟨-, stored, held⟩ := reason
    rw [Origin.memory, Blocks.block_setBlock_same]
    have valid : seen.valid = true := by
      simp only [fromStore, Bool.and_eq_true] at stored
      rcases steady with same | ⟨-, invalid⟩
      · rw [← same]
        exact stored.1.1
      · simp [invalid] at stored
    obtain ⟨entry, found, rfl⟩ := InvertedTable.view_eq_some.mp shown
    have looked : syncAll before.tlb entry ∈ before.faultingEntry action := by
      rw [missed.faultingEntry running reference, Kernel.entry_updataPageTables, found]
      rfl
    have here : (⟨thread, virtualPageNumber addr⟩ : PageRef) ∈ before.absentPage action := by
      rcases faulted.absentPage running reference missed with ⟨same, -⟩ | ⟨-, some_⟩
      · simp at same
      · exact some_
    rw [← clearUse_syncAll] at stored
    have single := truthful.1 _ here _ looked stored
    obtain ⟨copy, copies⟩ := List.length_eq_one_iff.mp single
    obtain ⟨bytes, gone, newest, -⟩ := evicted valid
    rw [copies, List.getLast?_singleton, Option.some.injEq] at newest
    rw [Map.get?_insert, Map.get?_eq_head, copies, List.head?_cons, Option.some_or,
      Option.some.injEq] at held
    rw [gone, Option.getD_some, ← newest, held]

/-- A truthful fault leaves every page out of memory remembered. -/
theorem Remembers.faulted {evictions : PageRef → Option Page}
    (remembers : Remembers before evictions) (sound : Sound before) (settled : Settled before)
    (running : before.currentThread = some thread)
    (reference : action.reference = some (addr, size)) (missed : Missed before addr size)
    (truthful : SwapTruthful before action)
    (faulted : Faulted before after ⟨thread, virtualPageNumber addr⟩ home.2 slot number origin) :
    Remembers after (fun ref =>
      if origin.victim = some ref then some (before.frame number) else evictions ref) := by
  intro ref entry seen absent
  obtain ⟨elsewhere, old, found, lost | ⟨rfl, gone⟩⟩ := faulted.view_absent seen absent
  · -- The victim left with the bytes of the frame, and they are its newest copy.
    obtain ⟨old', found', rfl⟩ := faulted.view_after seen
    obtain rfl : old = old' := by simpa [found] using found'
    rw [Origin.change_victim number elsewhere lost]
    refine ⟨fun _ => ⟨before.frame number, if_pos lost, ?_, ?_⟩, by simp⟩
    · rw [faulted.copies sound found, if_pos lost, List.getLast?_append]
      rfl
    · intro clean
      obtain ⟨original, there, rfl⟩ := InvertedTable.view_eq_some.mp found
      rw [Kernel.initialOf_congr (faulted.homes ref.thread)]
      have bytes : before.bytesOf ref = before.frame number := by
        simp [Kernel.bytesOf, faulted.frameOf_victim lost]
      rw [← bytes]
      refine truthful.2 ref ?_ (syncAll before.tlb original) ?_ ?_
      · rw [faulted.evicts sound running reference missed]
        exact lost
      · rw [Kernel.entry_updataPageTables, there]
        rfl
      · rw [← clearUse_syncAll] at clean
        exact clean
  · by_cases lost : origin.victim = some ref
    · -- The victim was in memory.
      obtain ⟨-, out, visible, framed⟩ := faulted.ousted ref lost
      obtain rfl : old = out := by simpa [found] using visible
      rw [gone] at framed
      exact absurd framed.symm (natCast_ne_noPhysicalPage number)
    · have steady : Steady before (syncAll before.tlb) := fun ref entry shown out =>
        settled.syncAll_absent sound shown out
      have copies : after.backingStore.copies (after.invertedTable.entryAddress ref) =
          before.backingStore.copies (before.invertedTable.entryAddress ref) := by
        rw [faulted.copies sound found]
        simp [elsewhere, lost]
      obtain ⟨evicted, fresh⟩ :=
        remembers.kept steady found gone copies (faulted.homes ref.thread)
      exact ⟨by simpa only [lost, if_false] using evicted, by simpa only [lost, if_false] using fresh⟩

end Faulted

/-- Truthful steps move pages faithfully and remember the ones they evict. -/
theorem Remembers.stepped {before after : Kernel} {action : Action}
    {evictions : PageRef → Option Page} (remembers : Remembers before evictions)
    (sound : Sound before) (settled : Settled before) (truthful : SwapTruthful before action)
    (stepped : Stepped before action after) :
    Runs.Accepts Paging.apply Paging.Faithful evictions (observePaging before action after) ∧
      Remembers after ((observePaging before action after).foldl Paging.apply evictions) := by
  have quiet : ∀ {action after}, action.creates = none → before.faultingEntry action = none →
      observePaging before action after = [] := by
    intro action after old none
    have absent : before.absentPage action = .none := by
      unfold Kernel.absentPage
      rw [none]
      split <;> simp_all
    simp only [observePaging, old, absent]
  have untouched : Steady before id := fun _ _ _ _ => .inl rfl
  have saved : Steady before before.saved := fun _ _ seen absent =>
    settled.saved_absent sound seen absent
  cases stepped with
  | exec magic created tlb running storage =>
    exact ⟨⟨trivial, trivial⟩, remembers.created sound.harmless saved created storage.store⟩
  | fork father filed pages created tlb running storage =>
    exact ⟨⟨trivial, trivial⟩,
      remembers.created .id untouched created storage.store⟩
  | exit running destroyed idle =>
    rw [quiet rfl (before.faultingEntry_silent rfl)]
    exact ⟨trivial, remembers.destroyed sound destroyed⟩
  | switchTo member views keys homes tlb running storage =>
    rw [quiet rfl (before.faultingEntry_silent rfl)]
    exact ⟨trivial, remembers.changed sound.harmless saved views homes storage.store⟩
  | load running hit decoded =>
    rw [quiet rfl (hit.faultingEntry rfl)]
    exact ⟨trivial, remembers.changed .id untouched (by simp) (fun _ => rfl) rfl⟩
  | store running hit encoded =>
    rw [quiet rfl (hit.faultingEntry rfl)]
    exact ⟨trivial, remembers.changed .id untouched (by simp) (fun _ => rfl) rfl⟩
  | @fault thread _ addr size home slot number origin _ running reference missed located faulted =>
    have next := remembers.faulted sound settled running reference missed truthful faulted
    rcases faulted.shows_paging sound running reference missed with ⟨rfl, nothing⟩ | ⟨moved, shown⟩
    · rw [nothing]
      exact ⟨trivial, by simpa [Origin.victim] using next⟩
    · have arrives := remembers.installed sound settled running reference missed truthful located
        faulted moved
      rw [shown]
      cases lost : origin.victim with
      | none =>
        simp only [lost, reduceCtorEq, if_false] at next
        exact ⟨⟨arrives, trivial⟩, next⟩
      | some victim =>
        -- The victim is another page, so its eviction does not touch what is remembered here.
        obtain ⟨differ, -⟩ := faulted.ousted victim lost
        have order : Paging.apply evictions (.evicted victim (before.frame number)) = fun ref =>
            if origin.victim = some ref then some (before.frame number) else evictions ref := by
          funext ref
          simp only [Paging.apply, lost, Option.some.injEq, eq_comm]
        refine ⟨⟨trivial, ?_, trivial⟩, ?_⟩
        · rw [order]
          simpa only [Paging.Faithful, lost, Option.some.injEq, differ, if_false] using arrives
        · rw [← order] at next
          exact next

/--
Pages come back as they left, as long as the store and the dirty bits tell the truth.

The first eviction of a page whose dirty bit was lost, or the first fetch of a page with several
copies in the store, ends this guarantee.
-/
theorem pages_return_as_evicted {kernel : Kernel} {history : List Paging}
    (traced : Runs.Traced step Boot SwapTruthful observePaging kernel history) :
    Runs.Accepts Paging.apply Paging.Faithful (fun _ => none) history := by
  have all : (Sound kernel ∧ Settled kernel ∧
      Remembers kernel (history.foldl Paging.apply fun _ => none)) ∧
      Runs.Accepts Paging.apply Paging.Faithful (fun _ => none) history := by
    refine traced.invariant (fun kernel history => (Sound kernel ∧ Settled kernel ∧
      Remembers kernel (history.foldl Paging.apply fun _ => none)) ∧
      Runs.Accepts Paging.apply Paging.Faithful (fun _ => none) history) ?_ ?_
    · intro kernel boot
      refine ⟨⟨boot.sound, boot.settled, ?_⟩, trivial⟩
      intro ref entry seen
      simp [boot.noSpaces, InvertedTable.view_eq] at seen
    · rintro before action after history ⟨⟨sound, settled, remembers⟩, accepted⟩ truthful done
      obtain ⟨stepped, sound'⟩ := sound.step done
      obtain ⟨faithful, remembers'⟩ := remembers.stepped sound settled truthful stepped
      refine ⟨⟨sound', settled.stepped sound stepped, ?_⟩,
        Runs.accepts_append.mpr ⟨accepted, faithful⟩⟩
      rw [List.foldl_append]
      exact remembers'
  exact all.2

/-- A page that was written to and evicted comes back from the store with its word. -/
theorem pages_return_after_pageOut :
    ∃ kernel, Runs.run step firstKernel (scribbleAndEvict ++ visit 0) = .ok kernel ∧
      kernel.bytesOf ⟨1, 0⟩ 0 = 7 ∧
      Runs.Accepts Paging.apply Paging.Faithful (fun _ => none)
        (Runs.record step observePaging firstKernel (scribbleAndEvict ++ visit 0)) := by
  obtain ⟨kernel, ran, seen⟩ := Runs.exists_of_runsTo
    (show Runs.runsTo step firstKernel (scribbleAndEvict ++ visit 0) (fun kernel =>
      kernel.bytesOf ⟨1, 0⟩ 0 == 7) = true by decide +kernel)
  -- The page is dirty when it is evicted, so its only copy is the one that comes back.
  have guarded : Runs.Guarded step SwapTruthful firstKernel (scribbleAndEvict ++ visit 0) := by
    decide +kernel
  have faithful := pages_return_as_evicted
    (Runs.Traced.extend (.start firstKernel_boot) guarded ran)
  exact ⟨kernel, ran, by simpa using seen, faithful⟩

/-- The last page that came in differs at an offset from what it should be. -/
def lastPageDiffers (history : List Paging) (offset : Fin pageSize) : Bool :=
  match history.getLast? with
  | some (.installed page initial contents) =>
    contents offset !=
      ((history.dropLast.foldl Paging.apply fun _ => none) page).getD initial offset
  | _ => false

/-- A history whose last page differs from what it should be is not faithful. -/
theorem not_accepts_of_lastPageDiffers {history : List Paging} {offset : Fin pageSize}
    (differs : lastPageDiffers history offset = true) :
    ¬ Runs.Accepts Paging.apply Paging.Faithful (fun _ => none) history := by
  intro accepted
  unfold lastPageDiffers at differs
  split at differs
  · rename_i page initial contents last
    rw [← List.dropLast_append_getLast? _ last] at accepted
    have same : contents = _ := accepted.last
    rw [same] at differs
    simp at differs
  · simp at differs

/--
A run that loses the dirty bit of a page.

The page is cached when thread 1 is left, so its frame stays named by an invalid slot behind the one
that caches the page again. Thread 1 writes to the page, and the handler copies the bits of both
slots, the stale ones last. The page is evicted as if it were clean and comes back from the
executable.
-/
def loseDirtyBit : List Action :=
  fillFrames ++ [1, 2, 3, 0].flatMap visit ++ [.exec 2 wideProgram 2000, .switchTo 1] ++
    scribble 0 ++ visit 32 ++ [.switchTo 2, .switchTo 1] ++ visit 0

/-- A page that was evicted with a stored word comes back without it. -/
theorem not_faithful_after_loseDirtyBit :
    Boot firstKernel ∧ ∃ kernel, Runs.run step firstKernel loseDirtyBit = .ok kernel ∧
      ¬ Runs.Accepts Paging.apply Paging.Faithful (fun _ => none)
        (Runs.record step observePaging firstKernel loseDirtyBit) := by
  refine ⟨firstKernel_boot, ?_⟩
  obtain ⟨kernel, ran, -⟩ := Runs.exists_of_runsTo
    (show Runs.runsTo step firstKernel loseDirtyBit (fun _ => true) = true by decide +kernel)
  have differs : lastPageDiffers (Runs.record step observePaging firstKernel loseDirtyBit) 0 =
      true := by decide +kernel
  exact ⟨kernel, ran, not_accepts_of_lastPageDiffers differs⟩

end Nachos.Vm
