import Nachos.Vm.Steps

/-! What holds in every state of the virtual memory system, whatever the programs do. -/

namespace Nachos.Vm

/-- Where a page can be: nowhere in memory, or in one of the frames. -/
def Framed (physicalPage : Int) : Prop :=
  physicalPage = noPhysicalPage ∨
    ∃ number : Nat, physicalPage = number ∧ number < numPhysPages

/-- Frame numbers are never confused with the number of no frame. -/
theorem natCast_ne_noPhysicalPage (number : Nat) : (number : Int) ≠ noPhysicalPage := by
  rw [noPhysicalPage]
  omega

/-- The invariant that needs no assumption about the run. -/
structure Sound (kernel : Kernel) : Prop where
  bits : kernel.physicalPageMap.numBits = numPhysPages
  distinct : kernel.invertedTable.getKeys.Nodup
  tlbLength : kernel.tlb.length = tlbSize
  tlbInside : kernel.tlbIndex < tlbSize
  named : ∀ ref entry, kernel.invertedTable.view ref = some entry → entry.virtualPage = ref.page
  writable : Writable kernel.invertedTable
  framed : ∀ ref entry, kernel.invertedTable.view ref = some entry → Framed entry.physicalPage
  cached : ∀ cached ∈ kernel.tlb, cached.valid = true → cached.readOnly = false ∧
    ∃ number : Nat, cached.physicalPage = number ∧ number < numPhysPages
  apart : ∀ first second one two, kernel.invertedTable.view first = some one →
    kernel.invertedTable.view second = some two →
    kernel.invertedTable.entryAddress first = kernel.invertedTable.entryAddress second →
    first = second
  stored : ∀ ref entry, kernel.invertedTable.view ref = some entry →
    entry.physicalPage = noPhysicalPage → entry.valid = true →
    kernel.backingStore.copies (kernel.invertedTable.entryAddress ref) ≠ []
  running : ∀ thread, kernel.currentThread = some thread →
    thread ∈ kernel.invertedTable.getKeys
  within : ∀ thread, kernel.currentThread = some thread → ∀ cached ∈ kernel.tlb,
    cached.valid = true → ∃ page : Nat, cached.virtualPage = page ∧
      (kernel.invertedTable.view ⟨thread, page⟩).isSome = true

/-- A sound kernel is ready for the page fault handler. -/
theorem Sound.ready {kernel : Kernel} (sound : Sound kernel) : Ready kernel :=
  ⟨sound.bits, sound.writable, sound.framed⟩

/-- The system starts sound. -/
theorem Boot.sound {kernel : Kernel} (boot : Boot kernel) : Sound kernel := by
  obtain ⟨garbage, covers, fresh⟩ := boot.freshMap
  have blank : ∀ ref, kernel.invertedTable.view ref = none := by
    intro ref
    simp [boot.noSpaces, InvertedTable.view_eq]
  refine ⟨by simp [fresh], by simp [boot.noSpaces, Map.getKeys, Map.empty], boot.tlbLength,
    by simp [boot.tlbStart, tlbSize], ?_, ?_, ?_, ?_, ?_, ?_, ?_, by simp [boot.idle]⟩
  · simp [blank]
  · simp [Writable, blank]
  · simp [blank]
  · intro cached member valid
    simp [boot.tlbInvalid cached member] at valid
  · simp [blank]
  · simp [blank]
  · simp [boot.idle]

/-- A page without a frame that is valid after a synchronisation was left alone by it. -/
theorem Sound.syncAll_absent {kernel : Kernel} (sound : Sound kernel) {entry : TranslationEntry}
    (absent : entry.physicalPage = noPhysicalPage) (valid : (syncAll kernel.tlb entry).valid = true) :
    syncAll kernel.tlb entry = entry := by
  rcases syncAll_cases kernel.tlb entry with same | ⟨cached, member, frame, same⟩
  · exact same
  · -- Only an invalid TLB entry can name no frame, and it would have made the page invalid.
    rw [same] at valid
    obtain ⟨-, number, number_eq, -⟩ := sound.cached cached member valid
    rw [frame, absent] at number_eq
    exact absurd number_eq.symm (natCast_ne_noPhysicalPage number)

/-- The TLB search of the handler always ends. -/
theorem Sound.search {kernel : Kernel} (sound : Sound kernel) :
    ∃ searched slot, secondChanceTlb kernel.tlb kernel.tlbIndex = .ok (searched, slot) := by
  refine secondChanceTlb_ends sound.tlbLength sound.tlbInside ?_
  intro entry member valid
  obtain ⟨-, number, named, -⟩ := sound.cached entry member valid
  rw [named]
  exact natCast_ne_noPhysicalPage number

/-- A page without a frame that is valid after it was saved was left alone too. -/
theorem Sound.saved_absent {kernel : Kernel} (sound : Sound kernel) {entry : TranslationEntry}
    (absent : entry.physicalPage = noPhysicalPage) (valid : (kernel.saved entry).valid = true) :
    kernel.saved entry = entry := by
  unfold Kernel.saved at valid ⊢
  split
  · rfl
  · rename_i running
    simp only [running] at valid
    exact sound.syncAll_absent absent valid

/-- Flushing makes every slot invalid. -/
theorem valid_of_mem_flushed {tlb : List TranslationEntry} {cached : TranslationEntry}
    (member : cached ∈ flushed tlb) : cached.valid = false := by
  simp only [flushed, List.mem_map] at member
  obtain ⟨_, _, rfl⟩ := member
  rfl

/-- A slot after one slot was changed is that slot changed or an old slot. -/
theorem slot_modify {tlb : List TranslationEntry} {slot place : Nat}
    {change : TranslationEntry → TranslationEntry} {cached : TranslationEntry}
    (located : (tlb.modify slot change)[place]? = some cached) :
    ∃ old, tlb[place]? = some old ∧ cached = if slot = place then change old else old := by
  rw [List.getElem?_modify] at located
  cases found : tlb[place]? with
  | none => simp [found] at located
  | some old =>
    simp only [found, Option.map_eq_map, Option.map_some, Option.some.injEq] at located
    exact ⟨old, rfl, located.symm⟩

/-- A reference changes neither what a slot translates nor whether it does. -/
theorem slot_touch {tlb : List TranslationEntry} {slot place : Nat} {writing : Bool}
    {cached : TranslationEntry}
    (located : (tlb.modify slot (·.touch writing))[place]? = some cached) :
    ∃ old, tlb[place]? = some old ∧ cached.virtualPage = old.virtualPage ∧
      cached.physicalPage = old.physicalPage ∧ cached.valid = old.valid ∧
      cached.readOnly = old.readOnly := by
  obtain ⟨old, found, rfl⟩ := slot_modify located
  refine ⟨old, found, ?_⟩
  split <;> simp

section Faulted

variable {before after : Kernel} {page : PageRef} {file : Executable} {slot number : Nat}
  {origin : Origin}

/-- The faulting page is a page of its thread, and ends up valid in its frame. -/
theorem Faulted.view_page (faulted : Faulted before after page file slot number origin) :
    ∃ entry, before.invertedTable.view page = some entry ∧
      after.invertedTable.view page =
        some { syncAll before.tlb entry with physicalPage := number, valid := true } := by
  obtain ⟨entry, seen, -⟩ := faulted.justified
  refine ⟨entry, seen, ?_⟩
  rw [faulted.views, seen, Option.map_some, Origin.change_page]

/-- Entries move to the new frame, move out of memory, or stay where they are. -/
theorem Faulted.view_after (faulted : Faulted before after page file slot number origin)
    {ref : PageRef} {entry : TranslationEntry} (seen : after.invertedTable.view ref = some entry) :
    ∃ old, before.invertedTable.view ref = some old ∧
      entry = origin.change page number ref (syncAll before.tlb old) := by
  rw [faulted.views, Option.map_eq_some_iff] at seen
  obtain ⟨old, found, rfl⟩ := seen
  exact ⟨old, found, rfl⟩

/-- A slot of the TLB caches the new page or is an old slot. -/
theorem Faulted.slots (faulted : Faulted before after page file slot number origin)
    {place : Nat} {cached : TranslationEntry} (located : after.tlb[place]? = some cached) :
    (place = slot ∧ after.invertedTable.view page = some (clearUse cached)) ∨
      (place ≠ slot ∧ ∃ old, before.tlb[place]? = some old ∧ clearUse old = clearUse cached) := by
  obtain ⟨searched, loaded, search, tlb, view⟩ := faulted.tlb
  have same := (secondChanceTlb_spec search).1
  rw [tlb, List.getElem?_set] at located
  split at located
  · rename_i here
    split at located
    · simp only [Option.some.injEq] at located
      subst located
      exact .inl ⟨here.symm, view⟩
    · simp at located
  · rename_i elsewhere
    exact .inr ⟨Ne.symm elsewhere, same.slot located⟩

/-- The replaced slot caches the page in its frame. -/
theorem Faulted.new_slot (sound : Sound before)
    (faulted : Faulted before after page file slot number origin) {cached : TranslationEntry}
    (located : after.tlb[slot]? = some cached) :
    cached.virtualPage = page.page ∧ cached.physicalPage = number ∧ cached.valid = true := by
  rcases faulted.slots located with ⟨-, view⟩ | ⟨elsewhere, -⟩
  · obtain ⟨entry, seen, shown⟩ := faulted.view_page
    rw [view, Option.some.injEq] at shown
    have name := sound.named page entry seen
    refine ⟨?_, ?_, ?_⟩
    · rw [← clearUse_virtualPage, shown]
      simpa using name
    · rw [← clearUse_physicalPage, shown]
    · rw [← clearUse_valid, shown]
  · exact absurd rfl elsewhere

/-- No page table moves in a page fault. -/
theorem Faulted.entryAddress (faulted : Faulted before after page file slot number origin)
    (ref : PageRef) :
    after.invertedTable.entryAddress ref = before.invertedTable.entryAddress ref :=
  InvertedTable.entryAddress_congr (faulted.homes ref.thread)

/-- Does the handler remove a copy of the page from the backing store? -/
def Origin.fetches : Origin → Bool
  | .swapped _ _ => true
  | _ => false

/-- The fetched page loses its oldest copy, and the victim gains a newest one. -/
theorem Faulted.copies (faulted : Faulted before after page file slot number origin)
    (sound : Sound before) {ref : PageRef} {entry : TranslationEntry}
    (seen : before.invertedTable.view ref = some entry) :
    after.backingStore.copies (after.invertedTable.entryAddress ref) =
      (if ref = page ∧ origin.fetches = true then
        (before.backingStore.copies (before.invertedTable.entryAddress ref)).tail
      else before.backingStore.copies (before.invertedTable.entryAddress ref)) ++
      if origin.victim = some ref then [before.frame number] else [] := by
  obtain ⟨own, shown, -⟩ := faulted.justified
  have keys : ∀ other one, before.invertedTable.view other = some one →
      (before.invertedTable.entryAddress other = before.invertedTable.entryAddress ref ↔
        other = ref) := by
    intro other one visible
    exact ⟨sound.apart other ref one entry visible seen, fun same => by rw [same]⟩
  rw [faulted.store, faulted.entryAddress]
  cases origin with
  | resident => simp [Origin.store, Origin.fetches, Origin.victim]
  | free => simp [Origin.store, Origin.fetches, Origin.victim]
  | evicted victim =>
    obtain ⟨-, out, visible, -⟩ := faulted.ousted victim rfl
    simp [Origin.store, Origin.fetches, Origin.victim, Map.copies_insert, keys victim out visible]
  | swapped victim contents =>
    obtain ⟨differ, out, visible, -⟩ := faulted.ousted victim rfl
    simp only [Origin.store, Origin.fetches, Origin.victim, Map.copies_erase, Map.copies_insert,
      keys victim out visible, keys page own shown, and_true, Option.some.injEq]
    by_cases same : ref = page
    · subst same
      simp [differ]
    · simp [same, Ne.symm same]

/-- A page that is out of memory after a fault is the victim or was out of memory before. -/
theorem Faulted.view_absent (faulted : Faulted before after page file slot number origin)
    {ref : PageRef} {entry : TranslationEntry} (seen : after.invertedTable.view ref = some entry)
    (absent : entry.physicalPage = noPhysicalPage) :
    ref ≠ page ∧ ∃ old, before.invertedTable.view ref = some old ∧
      (origin.victim = some ref ∨
        (entry = syncAll before.tlb old ∧ old.physicalPage = noPhysicalPage)) := by
  obtain ⟨old, found, rfl⟩ := faulted.view_after seen
  have elsewhere : ref ≠ page := by
    rintro rfl
    rw [Origin.change_page] at absent
    exact natCast_ne_noPhysicalPage number absent
  refine ⟨elsewhere, old, found, ?_⟩
  by_cases lost : origin.victim = some ref
  · exact .inl lost
  · rw [Origin.change_other number elsewhere lost, id] at absent ⊢
    exact .inr ⟨rfl, by simpa using absent⟩

/-- Page faults keep the kernel sound. -/
theorem Sound.faulted (sound : Sound before) (own : before.currentThread = some page.thread)
    (faulted : Faulted before after page file slot number origin) : Sound after := by
  have keep : ∀ {ref entry}, after.invertedTable.view ref = some entry →
      ∃ old, before.invertedTable.view ref = some old := fun seen =>
    (faulted.view_after seen).imp fun _ both => both.1
  refine ⟨?_, by rw [faulted.keys]; exact sound.distinct, ?_, ?_, ?_, ?_, ?_, ?_, ?_, ?_, ?_, ?_⟩
  · rw [faulted.map]
    cases origin <;> simpa [Origin.map] using sound.bits
  · obtain ⟨searched, loaded, search, tlb, -⟩ := faulted.tlb
    rw [tlb, List.length_set, (secondChanceTlb_spec search).1.length, sound.tlbLength]
  · rw [faulted.tlbIndex]
    exact Nat.mod_lt _ (by decide)
  · intro ref entry seen
    obtain ⟨old, found, rfl⟩ := faulted.view_after seen
    have name := sound.named ref old found
    unfold Origin.change
    split <;> [skip; split] <;> simpa using name
  · intro ref entry seen
    obtain ⟨old, found, rfl⟩ := faulted.view_after seen
    have bit := sound.writable ref old found
    unfold Origin.change
    split <;> [skip; split] <;> simpa using bit
  · intro ref entry seen
    obtain ⟨old, found, rfl⟩ := faulted.view_after seen
    unfold Origin.change
    split
    · exact .inr ⟨number, rfl, faulted.inside⟩
    · split
      · exact .inl rfl
      · simpa using sound.framed ref old found
  · intro cached member valid
    obtain ⟨place, located⟩ := List.getElem?_of_mem member
    rcases faulted.slots located with ⟨-, view⟩ | ⟨-, old, found, same⟩
    · obtain ⟨entry, seen, shown⟩ := faulted.view_page
      rw [view, Option.some.injEq] at shown
      have open_ := sound.writable page entry seen
      refine ⟨?_, number, ?_, faulted.inside⟩
      · rw [← clearUse_readOnly, shown]
        simpa using open_
      · rw [← clearUse_physicalPage, shown]
    · obtain ⟨-, frames, valids, bits, -⟩ := clearUse_inj same
      rw [← frames, ← bits]
      exact sound.cached old (List.mem_of_getElem? found) (by rw [valids, valid])
  · intro first second one two left right same
    obtain ⟨_, left⟩ := keep left
    obtain ⟨_, right⟩ := keep right
    rw [faulted.entryAddress, faulted.entryAddress] at same
    exact sound.apart first second _ _ left right same
  · intro ref entry seen absent valid
    -- Only the faulting page can lose a copy, and it is in memory now.
    obtain ⟨elsewhere, old, found, lost | ⟨rfl, gone⟩⟩ := faulted.view_absent seen absent
    · simp [faulted.copies sound found, lost]
    · rw [sound.syncAll_absent gone valid] at valid
      rw [faulted.copies sound found]
      simp [elsewhere, sound.stored ref old found gone valid]
  · intro thread current
    rw [faulted.keys]
    exact sound.running thread (by rw [← faulted.currentThread, current])
  · intro thread current cached member valid
    rw [faulted.currentThread] at current
    obtain ⟨place, located⟩ := List.getElem?_of_mem member
    by_cases here : place = slot
    · obtain ⟨named, -⟩ := faulted.new_slot sound (here ▸ located)
      obtain ⟨entry, -, shown⟩ := faulted.view_page
      obtain rfl : thread = page.thread := by simpa [own] using current.symm
      exact ⟨page.page, named, by simp [shown]⟩
    · obtain ⟨same, -⟩ | ⟨-, old, found, same⟩ := faulted.slots located
      · exact absurd same here
      · obtain ⟨names, -, valids, -⟩ := clearUse_inj same
        obtain ⟨number, named, seen⟩ := sound.within thread current old
          (List.mem_of_getElem? found) (by rw [valids, valid])
        exact ⟨number, by rw [← names, named], by simpa [faulted.views] using seen⟩

end Faulted

/-- A change of entries that keeps pages in place and revives no page that is out of memory. -/
structure Harmless (change : TranslationEntry → TranslationEntry) : Prop where
  virtualPage : ∀ entry, (change entry).virtualPage = entry.virtualPage
  physicalPage : ∀ entry, (change entry).physicalPage = entry.physicalPage
  readOnly : ∀ entry, (change entry).readOnly = entry.readOnly
  absent : ∀ entry, entry.physicalPage = noPhysicalPage → (change entry).valid = true →
    change entry = entry

/-- Doing nothing is harmless. -/
theorem Harmless.id : Harmless id :=
  ⟨fun _ => rfl, fun _ => rfl, fun _ => rfl, fun _ _ _ => rfl⟩

/-- Saving is harmless in a sound kernel. -/
theorem Sound.harmless {kernel : Kernel} (sound : Sound kernel) : Harmless kernel.saved :=
  ⟨kernel.saved_virtualPage, kernel.saved_physicalPage, kernel.saved_readOnly,
    fun _ absent valid => sound.saved_absent absent valid⟩

/-- Pages out of memory stay invalid under harmless changes. -/
theorem Harmless.invalid {change : TranslationEntry → TranslationEntry} (harmless : Harmless change)
    {entry : TranslationEntry} (absent : entry.physicalPage = noPhysicalPage)
    (invalid : entry.valid = false) : (change entry).valid = false := by
  cases valid : (change entry).valid with
  | false => rfl
  | true =>
    rw [harmless.absent entry absent valid, invalid] at valid
    exact valid.symm

section Tables

variable {before after : Kernel}

/-- Changing entries harmlessly keeps the kernel sound, whatever happens to the TLB. -/
theorem Sound.changed {change : TranslationEntry → TranslationEntry} (sound : Sound before)
    (harmless : Harmless change)
    (views : ∀ ref, after.invertedTable.view ref = (before.invertedTable.view ref).map change)
    (keys : after.invertedTable.getKeys = before.invertedTable.getKeys)
    (homes : ∀ other, after.invertedTable.home other = before.invertedTable.home other)
    (storage : SameStorage before after) (length : after.tlb.length = before.tlb.length)
    (cached : ∀ cached ∈ after.tlb, cached.valid = true → cached.readOnly = false ∧
      ∃ number : Nat, cached.physicalPage = number ∧ number < numPhysPages)
    (running : ∀ thread, after.currentThread = some thread →
      thread ∈ after.invertedTable.getKeys)
    (within : ∀ thread, after.currentThread = some thread → ∀ cached ∈ after.tlb,
      cached.valid = true → ∃ page : Nat, cached.virtualPage = page ∧
        (after.invertedTable.view ⟨thread, page⟩).isSome = true) : Sound after := by
  have back : ∀ {ref entry}, after.invertedTable.view ref = some entry →
      ∃ old, before.invertedTable.view ref = some old ∧ change old = entry := by
    intro ref entry seen
    rwa [views, Option.map_eq_some_iff] at seen
  have address : ∀ ref, after.invertedTable.entryAddress ref =
      before.invertedTable.entryAddress ref := fun ref =>
    InvertedTable.entryAddress_congr (homes ref.thread)
  refine ⟨by rw [storage.map]; exact sound.bits, by rw [keys]; exact sound.distinct,
    by rw [length]; exact sound.tlbLength, by rw [storage.tlbIndex]; exact sound.tlbInside,
    ?_, ?_, ?_, cached, ?_, ?_, running, within⟩
  · intro ref entry seen
    obtain ⟨old, found, rfl⟩ := back seen
    rw [harmless.virtualPage]
    exact sound.named ref old found
  · intro ref entry seen
    obtain ⟨old, found, rfl⟩ := back seen
    rw [harmless.readOnly]
    exact sound.writable ref old found
  · intro ref entry seen
    obtain ⟨old, found, rfl⟩ := back seen
    rw [harmless.physicalPage]
    exact sound.framed ref old found
  · intro first second one two left right same
    obtain ⟨_, left, -⟩ := back left
    obtain ⟨_, right, -⟩ := back right
    rw [address, address] at same
    exact sound.apart first second _ _ left right same
  · intro ref entry seen absent valid
    obtain ⟨old, found, rfl⟩ := back seen
    rw [harmless.physicalPage] at absent
    rw [harmless.absent old absent valid] at valid
    rw [storage.store, address]
    exact sound.stored ref old found absent valid

/-- A page of a table with a new thread is a blank page of it or an old page. -/
theorem Created.view_cases {before after : InvertedTable} {thread : Thread} {count address : Nat}
    {file : Executable} {change : TranslationEntry → TranslationEntry}
    (created : Created before after thread count address file change) {ref : PageRef}
    {entry : TranslationEntry} (seen : after.view ref = some entry) :
    (ref.thread = thread ∧ ref.page < count ∧ entry = freshEntry ref.page false ∧
      after.entryAddress ref = address + ref.page) ∨
    (ref.thread ≠ thread ∧ ∃ old, before.view ref = some old ∧ change old = entry ∧
      after.entryAddress ref = before.entryAddress ref) := by
  have home := created.homes ref.thread
  rw [created.views] at seen
  by_cases own : ref.thread = thread
  · rw [if_pos own] at seen home
    split at seen
    · rename_i inside
      simp only [Option.some.injEq] at seen
      refine .inl ⟨own, inside, seen.symm, ?_⟩
      rw [InvertedTable.entryAddress_eq_home, home]
      rfl
    · simp at seen
  · rw [if_neg own] at seen home
    obtain ⟨old, found, rfl⟩ := Option.map_eq_some_iff.mp seen
    exact .inr ⟨own, old, found, rfl, InvertedTable.entryAddress_congr home⟩

/-- A new address space keeps the kernel sound, whatever happens to the TLB. -/
theorem Sound.created {change : TranslationEntry → TranslationEntry} {thread : Thread}
    {count address : Nat} {file : Executable} (sound : Sound before) (harmless : Harmless change)
    (created : Created before.invertedTable after.invertedTable thread count address file change)
    (storage : SameStorage before after) (length : after.tlb.length = before.tlb.length)
    (cached : ∀ cached ∈ after.tlb, cached.valid = true → cached.readOnly = false ∧
      ∃ number : Nat, cached.physicalPage = number ∧ number < numPhysPages)
    (running : ∀ thread, after.currentThread = some thread →
      thread ∈ after.invertedTable.getKeys)
    (within : ∀ thread, after.currentThread = some thread → ∀ cached ∈ after.tlb,
      cached.valid = true → ∃ page : Nat, cached.virtualPage = page ∧
        (after.invertedTable.view ⟨thread, page⟩).isSome = true) : Sound after := by
  refine ⟨by rw [storage.map]; exact sound.bits, ?_,
    by rw [length]; exact sound.tlbLength, by rw [storage.tlbIndex]; exact sound.tlbInside,
    ?_, ?_, ?_, cached, ?_, ?_, running, within⟩
  · rw [created.keys, List.nodup_append]
    refine ⟨sound.distinct, by simp, ?_⟩
    simp only [List.mem_singleton]
    rintro other member _ rfl rfl
    exact created.fresh member
  · intro ref entry seen
    rcases created.view_cases seen with ⟨-, -, rfl, -⟩ | ⟨-, old, found, rfl, -⟩
    · rfl
    · rw [harmless.virtualPage]
      exact sound.named ref old found
  · intro ref entry seen
    rcases created.view_cases seen with ⟨-, -, rfl, -⟩ | ⟨-, old, found, rfl, -⟩
    · rfl
    · rw [harmless.readOnly]
      exact sound.writable ref old found
  · intro ref entry seen
    rcases created.view_cases seen with ⟨-, -, rfl, -⟩ | ⟨-, old, found, rfl, -⟩
    · exact .inl rfl
    · rw [harmless.physicalPage]
      exact sound.framed ref old found
  · -- New pages lie where the allocator found room, old pages where they were.
    intro first second one two left right same
    rcases created.view_cases left with ⟨mine, inside, -, place⟩ | ⟨-, old, found, -, place⟩
    · rcases created.view_cases right with ⟨yours, -, -, other⟩ | ⟨-, old, found, -, other⟩
      · have pages : first.page = second.page := by omega
        cases first
        cases second
        simp_all
      · have outside := created.apart second old found
        omega
    · rcases created.view_cases right with ⟨-, inside, -, other⟩ | ⟨-, old', found', -, other⟩
      · have outside := created.apart first old found
        omega
      · exact sound.apart first second old old' found found' (by omega)
  · intro ref entry seen absent valid
    rcases created.view_cases seen with ⟨-, -, rfl, -⟩ | ⟨-, old, found, rfl, place⟩
    · simp [freshEntry] at valid
    · rw [harmless.physicalPage] at absent
      rw [harmless.absent old absent valid] at valid
      rw [storage.store, place]
      exact sound.stored ref old found absent valid

/-- Destroying an address space keeps the kernel sound. -/
theorem Sound.destroyed {thread : Thread} (sound : Sound before)
    (destroyed : Destroyed before after thread) (idle : after.currentThread = none) :
    Sound after := by
  have back : ∀ {ref entry}, after.invertedTable.view ref = some entry →
      ref.thread ≠ thread ∧ before.invertedTable.view ref = some entry ∧
        after.invertedTable.entryAddress ref = before.invertedTable.entryAddress ref := by
    intro ref entry seen
    have home := destroyed.homes ref.thread
    rw [destroyed.views] at seen
    split at seen
    · simp at seen
    · rename_i other
      rw [if_neg other] at home
      exact ⟨other, seen, InvertedTable.entryAddress_congr home⟩
  refine ⟨by rw [destroyed.numBits]; exact sound.bits,
    by rw [destroyed.keys]; exact sound.distinct.erase thread,
    by rw [destroyed.tlb]; exact sound.tlbLength, by rw [destroyed.tlbIndex]; exact sound.tlbInside,
    ?_, ?_, ?_, by rw [destroyed.tlb]; exact sound.cached, ?_, ?_, by simp [idle], by simp [idle]⟩
  · intro ref entry seen
    exact sound.named ref entry (back seen).2.1
  · intro ref entry seen
    exact sound.writable ref entry (back seen).2.1
  · intro ref entry seen
    exact sound.framed ref entry (back seen).2.1
  · intro first second one two left right same
    obtain ⟨-, left, place⟩ := back left
    obtain ⟨-, right, other⟩ := back right
    exact sound.apart first second one two left right (by rw [← place, ← other, same])
  · intro ref entry seen absent valid
    obtain ⟨other, found, place⟩ := back seen
    rw [place, destroyed.stored]
    · exact sound.stored ref entry found absent valid
    · intro page gone visible _ same
      have equal := sound.apart ⟨thread, page⟩ ref gone entry visible found same
      exact other (by rw [← equal])

end Tables

/-- No page has been evicted: pages out of memory are invalid. -/
def Unloaded (kernel : Kernel) : Prop :=
  ∀ ref entry, kernel.invertedTable.view ref = some entry →
    entry.physicalPage = noPhysicalPage → entry.valid = false

/-- Page faults that take nobody's frame evict nothing. -/
theorem Unloaded.faulted {before after : Kernel} {page : PageRef} {file : Executable}
    {slot number : Nat} {origin : Origin} (unloaded : Unloaded before) (sound : Sound before)
    (faulted : Faulted before after page file slot number origin)
    (nobody : origin.victim = none) : Unloaded after := by
  intro ref entry seen absent
  obtain ⟨-, old, found, lost | ⟨rfl, gone⟩⟩ := faulted.view_absent seen absent
  · simp [nobody] at lost
  · cases valid : (syncAll before.tlb old).valid with
    | false => rfl
    | true =>
      rw [sound.syncAll_absent gone valid, unloaded ref old found gone] at valid
      exact valid.symm

section Unloaded

variable {before after : Kernel} {change : TranslationEntry → TranslationEntry}

/-- Harmless changes evict nothing. -/
theorem Unloaded.changed (unloaded : Unloaded before) (harmless : Harmless change)
    (views : ∀ ref, after.invertedTable.view ref = (before.invertedTable.view ref).map change) :
    Unloaded after := by
  intro ref entry seen absent
  rw [views, Option.map_eq_some_iff] at seen
  obtain ⟨old, found, rfl⟩ := seen
  rw [harmless.physicalPage] at absent
  exact harmless.invalid absent (unloaded ref old found absent)

/-- New address spaces have no evicted pages. -/
theorem Unloaded.created {thread : Thread} {count address : Nat} {file : Executable}
    (unloaded : Unloaded before) (harmless : Harmless change)
    (created : Created before.invertedTable after.invertedTable thread count address file change) :
    Unloaded after := by
  intro ref entry seen absent
  rcases created.view_cases seen with ⟨-, -, rfl, -⟩ | ⟨-, old, found, rfl, -⟩
  · rfl
  · rw [harmless.physicalPage] at absent
    exact harmless.invalid absent (unloaded ref old found absent)

/-- An exit evicts nothing. -/
theorem Unloaded.destroyed {thread : Thread} (unloaded : Unloaded before)
    (destroyed : Destroyed before after thread) : Unloaded after := by
  intro ref entry seen absent
  rw [destroyed.views] at seen
  split at seen
  · simp at seen
  · exact unloaded ref entry seen absent

end Unloaded

/-- Every step keeps the kernel sound. -/
theorem Sound.stepped {before after : Kernel} {action : Action} (sound : Sound before)
    (stepped : Stepped before action after) : Sound after := by
  have flush : ∀ cached ∈ flushed before.tlb, cached.valid = true → cached.readOnly = false ∧
      ∃ number : Nat, cached.physicalPage = number ∧ number < numPhysPages := by
    intro cached member valid
    simp [valid_of_mem_flushed member] at valid
  have touched : ∀ slot writing, ∀ cached ∈ before.tlb.modify slot (·.touch writing),
      cached.valid = true → cached.readOnly = false ∧
        ∃ number : Nat, cached.physicalPage = number ∧ number < numPhysPages := by
    intro slot writing cached member valid
    obtain ⟨place, located⟩ := List.getElem?_of_mem member
    obtain ⟨old, found, -, frames, valids, bits⟩ := slot_touch located
    rw [frames, bits]
    exact sound.cached old (List.mem_of_getElem? found) (by rw [← valids, valid])
  have touchedWithin : ∀ slot writing thread, before.currentThread = some thread →
      ∀ cached ∈ before.tlb.modify slot (·.touch writing), cached.valid = true →
      ∃ page : Nat, cached.virtualPage = page ∧
        (before.invertedTable.view ⟨thread, page⟩).isSome = true := by
    intro slot writing thread current cached member valid
    obtain ⟨place, located⟩ := List.getElem?_of_mem member
    obtain ⟨old, found, names, -, valids, -⟩ := slot_touch located
    rw [names]
    exact sound.within thread current old (List.mem_of_getElem? found) (by rw [← valids, valid])
  cases stepped with
  | exec magic created tlb running storage =>
    refine sound.created sound.harmless created storage (by simp [tlb, flushed]) ?_ ?_ ?_
    · rw [tlb]
      exact flush
    · intro thread current
      simp_all [created.keys]
    · intro thread _ cached member valid
      rw [tlb] at member
      simp [valid_of_mem_flushed member] at valid
  | fork father filed pages created tlb running storage =>
    refine sound.created .id created storage (by rw [tlb]) ?_ ?_ ?_
    · rw [tlb]
      exact sound.cached
    · intro thread current
      rw [running] at current
      simp [created.keys, sound.running thread current]
    · intro thread current cached member valid
      rw [running] at current
      rw [tlb] at member
      obtain ⟨page, named, seen⟩ := sound.within thread current cached member valid
      refine ⟨page, named, ?_⟩
      rw [created.views, if_neg]
      · simpa using seen
      · rintro rfl
        exact created.fresh (sound.running _ current)
  | exit running destroyed idle => exact sound.destroyed destroyed idle
  | switchTo member views keys homes tlb running storage =>
    refine sound.changed sound.harmless views keys homes storage (by simp [tlb, flushed]) ?_ ?_ ?_
    · rw [tlb]
      exact flush
    · intro thread current
      simp_all
    · intro thread _ cached member valid
      rw [tlb] at member
      simp [valid_of_mem_flushed member] at valid
  | load running hit decoded =>
    exact ⟨sound.bits, sound.distinct, by simp [sound.tlbLength], sound.tlbInside, sound.named,
      sound.writable, sound.framed, touched _ _, sound.apart, sound.stored, sound.running,
      touchedWithin _ _⟩
  | store running hit encoded =>
    exact ⟨sound.bits, sound.distinct, by simp [sound.tlbLength], sound.tlbInside, sound.named,
      sound.writable, sound.framed, touched _ _, sound.apart, sound.stored, sound.running,
      touchedWithin _ _⟩
  | fault running reference missed located faulted => exact sound.faulted running faulted

/-- Steps of a sound kernel do what their actions say and keep it sound. -/
theorem Sound.step {before after : Kernel} {action : Action} (sound : Sound before)
    (done : step before action = .ok after) : Stepped before action after ∧ Sound after := by
  have stepped := step_spec sound.ready sound.distinct done
  exact ⟨stepped, sound.stepped stepped⟩

/-- The kernel is sound in every state it can reach. -/
theorem sound_of_reachable {guard : Kernel → Action → Prop} {kernel : Kernel}
    (reached : Runs.Reachable step Boot guard kernel) : Sound kernel :=
  reached.invariant Sound (fun _ boot => boot.sound)
    fun _ _ _ sound _ done => (sound.step done).2

end Nachos.Vm
