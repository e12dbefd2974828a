import Nachos.Vm.Faults

/-! Everything one action of the system can do, said once. -/

namespace Nachos.Vm

/-- The TLB as `RestoreState` leaves it. -/
def flushed (tlb : List TranslationEntry) : List TranslationEntry :=
  tlb.map fun entry => { entry with valid := false }

/-- What `SaveState` makes of an entry, when there is an address space to save. -/
def Kernel.saved (kernel : Kernel) (entry : TranslationEntry) : TranslationEntry :=
  match kernel.currentThread with
  | none => entry
  | some _ => syncAll kernel.tlb entry

/-- Saving keeps the page, the frame and the protection of an entry. -/
theorem Kernel.saved_eq (kernel : Kernel) (entry : TranslationEntry) :
    ∃ dirty valid, kernel.saved entry = { entry with dirty := dirty, valid := valid } := by
  unfold Kernel.saved
  split
  · exact ⟨entry.dirty, entry.valid, rfl⟩
  · exact syncAll_eq kernel.tlb entry

/-- Saving never moves a page. -/
@[simp] theorem Kernel.saved_physicalPage (kernel : Kernel) (entry : TranslationEntry) :
    (kernel.saved entry).physicalPage = entry.physicalPage := by
  obtain ⟨dirty, valid, same⟩ := kernel.saved_eq entry
  rw [same]

/-- Saving never renames a page. -/
@[simp] theorem Kernel.saved_virtualPage (kernel : Kernel) (entry : TranslationEntry) :
    (kernel.saved entry).virtualPage = entry.virtualPage := by
  obtain ⟨dirty, valid, same⟩ := kernel.saved_eq entry
  rw [same]

/-- Saving never protects a page. -/
@[simp] theorem Kernel.saved_readOnly (kernel : Kernel) (entry : TranslationEntry) :
    (kernel.saved entry).readOnly = entry.readOnly := by
  obtain ⟨dirty, valid, same⟩ := kernel.saved_eq entry
  rw [same]

/-- The parts of the kernel that only page faults, stores and exits change. -/
structure SameStorage (before after : Kernel) : Prop where
  memory : after.mainMemory = before.mainMemory
  map : after.physicalPageMap = before.physicalPageMap
  store : after.backingStore = before.backingStore
  tlbIndex : after.tlbIndex = before.tlbIndex

/-- A new address space was registered, while the old entries went through a change. -/
structure Created (before after : InvertedTable) (thread : Thread) (count address : Nat)
    (file : Executable) (change : TranslationEntry → TranslationEntry) : Prop where
  fresh : thread ∉ before.getKeys
  apart : ∀ ref entry, before.view ref = some entry →
    before.entryAddress ref < address ∨ address + count ≤ before.entryAddress ref
  views : ∀ ref, after.view ref =
    if ref.thread = thread then
      if ref.page < count then some (freshEntry ref.page false) else none
    else (before.view ref).map change
  keys : after.getKeys = before.getKeys ++ [thread]
  homes : ∀ other, after.home other =
    if other = thread then some (address, file) else before.home other

/-- A frame is named by a page of a thread. -/
def InvertedTable.Occupies (table : InvertedTable) (thread : Thread) (number : Nat) : Prop :=
  ∃ page entry, table.view ⟨thread, page⟩ = some entry ∧ entry.physicalPage = number

/-- An entry for which the destructor turns to the backing store. -/
def discards (entry : TranslationEntry) : Bool :=
  entry.physicalPage == noPhysicalPage && entry.valid && entry.dirty

/-- An address space was destroyed. -/
structure Destroyed (before after : Kernel) (thread : Thread) : Prop where
  entries : ∀ ref, after.invertedTable.entry ref =
    if ref.thread = thread then none else before.invertedTable.entry ref
  keys : after.invertedTable.getKeys = before.invertedTable.getKeys.erase thread
  homes : ∀ other, after.invertedTable.home other =
    if other = thread then none else before.invertedTable.home other
  cleared : ∀ number, before.invertedTable.Occupies thread number →
    after.frame number = zeroPage ∧ after.physicalPageMap.testBit number = false
  kept : ∀ number, number < numPhysPages → ¬ before.invertedTable.Occupies thread number →
    after.frame number = before.frame number ∧
      after.physicalPageMap.testBit number = before.physicalPageMap.testBit number
  discarded : ∀ page entry, before.invertedTable.view ⟨thread, page⟩ = some entry →
    discards entry = true →
    before.backingStore.copies (before.invertedTable.entryAddress ⟨thread, page⟩) ≠ [] ∧
    after.backingStore.copies (before.invertedTable.entryAddress ⟨thread, page⟩) =
      (before.backingStore.copies (before.invertedTable.entryAddress ⟨thread, page⟩)).tail
  stored : ∀ key, (∀ page entry, before.invertedTable.view ⟨thread, page⟩ = some entry →
    discards entry = true → before.invertedTable.entryAddress ⟨thread, page⟩ ≠ key) →
    after.backingStore.copies key = before.backingStore.copies key
  numBits : after.physicalPageMap.numBits = before.physicalPageMap.numBits
  tlb : after.tlb = before.tlb
  tlbIndex : after.tlbIndex = before.tlbIndex

/-- The pages of all other threads look as before. -/
theorem Destroyed.views {before after : Kernel} {thread : Thread}
    (destroyed : Destroyed before after thread) (ref : PageRef) :
    after.invertedTable.view ref =
      if ref.thread = thread then none else before.invertedTable.view ref := by
  simp only [InvertedTable.view, destroyed.entries]
  split <;> simp

/-- A reference that the TLB translates sets the bits of the slot it uses. -/
structure Hit (before : Kernel) (addr : BitVec 32) (size : Nat) (writing : Bool) (slot : Nat)
    (cached : TranslationEntry) (number : Nat) : Prop where
  translated : Translated (.tlb before.tlb) addr size writing slot cached number
  located : before.tlb[slot]? = some cached
  valid : cached.valid = true
  named : cached.virtualPage = virtualPageNumber addr

/-- A reference that the TLB misses. -/
structure Missed (before : Kernel) (addr : BitVec 32) (size : Nat) : Prop where
  aligned : misaligned addr size = false
  missed : ∀ cached ∈ before.tlb, cached.valid = true →
    cached.virtualPage ≠ virtualPageNumber addr

/-- The address a reference is made to, with its size. -/
def Action.reference : Action → Option (BitVec 32 × Nat)
  | .load addr size => some (addr, size)
  | .store addr size _ => some (addr, size)
  | _ => none

/-- What each action does when it succeeds. -/
inductive Stepped (before : Kernel) : Action → Kernel → Prop
  | exec {thread file address after} : file.header.isNoff = true →
      Created before.invertedTable after.invertedTable thread file.numPages address file
        before.saved →
      after.tlb = flushed before.tlb → after.currentThread = some thread →
      SameStorage before after → Stepped before (.exec thread file address) after
  | fork {thread father count file address after} : before.currentThread = some father →
      (before.invertedTable.home father).map Prod.snd = some file →
      (∀ page, (before.invertedTable.view ⟨father, page⟩).isSome ↔ page < count) →
      Created before.invertedTable after.invertedTable thread count address file id →
      after.tlb = before.tlb → after.currentThread = before.currentThread →
      SameStorage before after → Stepped before (.fork thread address) after
  | exit {thread after} : before.currentThread = some thread → Destroyed before after thread →
      after.currentThread = none → Stepped before .exit after
  | switchTo {thread after} : thread ∈ before.invertedTable.getKeys →
      (∀ ref, after.invertedTable.view ref = (before.invertedTable.view ref).map before.saved) →
      after.invertedTable.getKeys = before.invertedTable.getKeys →
      (∀ other, after.invertedTable.home other = before.invertedTable.home other) →
      after.tlb = flushed before.tlb → after.currentThread = some thread →
      SameStorage before after → Stepped before (.switchTo thread) after
  | load {thread addr size slot cached number value} : before.currentThread = some thread →
      Hit before addr size false slot cached number →
      decodeBytes (Blocks.cells before.mainMemory
        (number * pageSize + pageOffset addr) size) = some value →
      Stepped before (.load addr size)
        { before with tlb := before.tlb.modify slot (·.touch false) }
  | store {thread addr size value slot cached number bytes} : before.currentThread = some thread →
      Hit before addr size true slot cached number → encodeBytes size value = some bytes →
      Stepped before (.store addr size value)
        { before with
          tlb := before.tlb.modify slot (·.touch true)
          mainMemory := Blocks.setCells before.mainMemory
            (number * pageSize + pageOffset addr) bytes }
  | fault {thread action addr size home slot number origin after} :
      before.currentThread = some thread → action.reference = some (addr, size) →
      Missed before addr size → before.invertedTable.home thread = some home →
      Faulted before after ⟨thread, virtualPageNumber addr⟩ home.2 slot number origin →
      Stepped before action after

section Leave

variable (kernel : Kernel)

/-- Leaving a thread saves every entry. -/
theorem Kernel.view_leave (ref : PageRef) :
    kernel.leave.invertedTable.view ref = (kernel.invertedTable.view ref).map kernel.saved := by
  unfold Kernel.leave Kernel.saved
  cases kernel.currentThread with
  | none => exact Option.map_id'.symm
  | some thread => exact kernel.view_updataPageTables ref

/-- Leaving a thread moves no page table. -/
@[simp] theorem Kernel.home_leave (thread : Thread) :
    kernel.leave.invertedTable.home thread = kernel.invertedTable.home thread := by
  unfold Kernel.leave
  split
  · rfl
  · exact kernel.home_updataPageTables thread

/-- Leaving a thread moves no pointer. -/
@[simp] theorem Kernel.entryAddress_leave (ref : PageRef) :
    kernel.leave.invertedTable.entryAddress ref = kernel.invertedTable.entryAddress ref := by
  simp [InvertedTable.entryAddress_eq_home]

/-- Leaving a thread keeps the registered threads. -/
@[simp] theorem Kernel.getKeys_leave :
    kernel.leave.invertedTable.getKeys = kernel.invertedTable.getKeys := by
  unfold Kernel.leave
  split
  · rfl
  · exact kernel.getKeys_updataPageTables

/-- Leaving a thread changes page tables only. -/
theorem Kernel.leave_eq : ∃ table, kernel.leave = { kernel with invertedTable := table } := by
  unfold Kernel.leave
  split
  · exact ⟨kernel.invertedTable, rfl⟩
  · exact ⟨_, rfl⟩

end Leave

/-- Every registered page is a page of the table that its thread answers with. -/
theorem InvertedTable.view_eq (table : InvertedTable) (ref : PageRef) :
    table.view ref =
      ((table.get? ref.thread).bind fun space => space.pageTable[ref.page]?).map clearUse := rfl

/-- A visible page lies inside the page table of its thread. -/
theorem InvertedTable.entryAddress_of_view {table : InvertedTable} {ref : PageRef}
    {entry : TranslationEntry} (seen : table.view ref = some entry) :
    ∃ space, table.get? ref.thread = some space ∧ ref.page < space.pageTable.length ∧
      table.entryAddress ref = space.address + ref.page := by
  rw [view_eq, Option.map_eq_some_iff] at seen
  obtain ⟨original, found, -⟩ := seen
  obtain ⟨space, located, listed⟩ := Option.bind_eq_some_iff.mp found
  exact ⟨space, located, (List.getElem?_eq_some_iff.mp listed).1, by simp [entryAddress, located]⟩

/-- A lookup is answered by a registered pair. -/
theorem Map.mem_of_get? {κ ο : Type} [DecidableEq κ] {map : Map κ ο} {key : κ} {object : ο}
    (found : map.get? key = some object) : (key, object) ∈ map.entries := by
  simp only [Map.get?, Option.map_eq_some_iff] at found
  obtain ⟨⟨other, _⟩, located, rfl⟩ := found
  have named : other = key := by simpa using List.find?_some located
  exact named ▸ List.mem_of_find?_eq_some located

/-- Registering an address space whose pages are all blank. -/
theorem Kernel.register_spec {kernel after : Kernel} {thread : Thread} {space : AddrSpace}
    (registered : kernel.register thread space = .ok after)
    (blank : ∀ page, space.pageTable[page]? =
      if page < space.pageTable.length then some (freshEntry page false) else none) :
    after = { kernel with invertedTable := after.invertedTable } ∧
      Created kernel.invertedTable after.invertedTable thread space.pageTable.length space.address
        space.file id := by
  unfold Kernel.register at registered
  split at registered
  · rename_i allowed
    obtain ⟨fresh, allocated⟩ := allowed
    simp only [Except.ok.injEq] at registered
    subst registered
    have absent : kernel.invertedTable.get? thread = none := by
      cases found : kernel.invertedTable.get? thread with
      | none => rfl
      | some old => exact absurd ((Map.mem_getKeys _ _).mpr ⟨old, found⟩) fresh
    refine ⟨rfl, fresh, ?_, ?_, ?_, ?_⟩
    · intro ref entry seen
      obtain ⟨other, located, inside, address⟩ := InvertedTable.entryAddress_of_view seen
      have apart := List.all_eq_true.mp allocated _ (Map.mem_of_get? located)
      simp only [Bool.or_eq_true, decide_eq_true_eq] at apart
      omega
    · intro ref
      simp only [InvertedTable.view_eq, Map.get?_insert]
      by_cases same : ref.thread = thread
      · simp only [same, absent, if_true, Option.none_or, Option.bind_some, blank]
        split <;> simp [freshEntry, clearUse]
      · simp [same, Ne.symm same]
    · simp [Map.getKeys, Map.insert]
    · intro other
      simp only [InvertedTable.home, Map.get?_insert]
      by_cases same : other = thread
      · simp [same, absent]
      · simp [same, Ne.symm same]
  · simp at registered

/-- A fresh executable has only blank pages. -/
theorem AddrSpace.ofExecutable_blank (file : Executable) (address page : Nat) :
    (AddrSpace.ofExecutable file address).pageTable[page]? =
      if page < (AddrSpace.ofExecutable file address).pageTable.length then
        some (freshEntry page false) else none := by
  simp only [AddrSpace.ofExecutable, List.getElem?_map, List.length_map, List.length_range]
  by_cases inside : page < file.numPages <;> simp [inside]

/-- A child of a father without protected pages has only blank pages. -/
theorem AddrSpace.ofFather_blank {father : AddrSpace}
    (open_ : ∀ entry ∈ father.pageTable, entry.readOnly = false) (address page : Nat) :
    (father.ofFather address).pageTable[page]? =
      if page < (father.ofFather address).pageTable.length then
        some (freshEntry page false) else none := by
  simp only [AddrSpace.ofFather, List.getElem?_mapIdx, List.length_mapIdx]
  by_cases inside : page < father.pageTable.length
  · simp only [List.getElem?_eq_getElem inside, inside, if_true, Option.map_some]
    rw [open_ _ (List.getElem_mem inside)]
  · simp [inside]

/-- The frames that a list of entries names. -/
def namedBy (entries : List TranslationEntry) (number : Nat) : Prop :=
  ∃ entry ∈ entries, entry.physicalPage = number

/-- What the loop of the destructor does from an address on. -/
structure Released (before after : Kernel) (entries : List TranslationEntry) (address : Nat) :
    Prop where
  cleared : ∀ number, namedBy entries number →
    after.frame number = zeroPage ∧ after.physicalPageMap.testBit number = false
  kept : ∀ number, number < numPhysPages → ¬ namedBy entries number →
    after.frame number = before.frame number ∧
      after.physicalPageMap.testBit number = before.physicalPageMap.testBit number
  discarded : ∀ page entry, entries[page]? = some entry → discards entry = true →
    before.backingStore.copies (address + page) ≠ [] ∧
    after.backingStore.copies (address + page) =
      (before.backingStore.copies (address + page)).tail
  stored : ∀ key, (∀ page entry, entries[page]? = some entry → discards entry = true →
    address + page ≠ key) → after.backingStore.copies key = before.backingStore.copies key
  numBits : after.physicalPageMap.numBits = before.physicalPageMap.numBits
  same : after = { before with
    mainMemory := after.mainMemory
    physicalPageMap := after.physicalPageMap
    backingStore := after.backingStore }

/-- An entry that asks nothing of the destructor can be put in front. -/
theorem Released.skip {before after : Kernel} {entries : List TranslationEntry} {address : Nat}
    {entry : TranslationEntry} (absent : entry.physicalPage = noPhysicalPage)
    (left : discards entry = false) (rest : Released before after entries (address + 1)) :
    Released before after (entry :: entries) address := by
  have names : ∀ number, namedBy (entry :: entries) number ↔ namedBy entries number := by
    intro number
    have other : entry.physicalPage ≠ number := by
      rw [absent, noPhysicalPage]
      omega
    simp [namedBy, other]
  refine ⟨?_, ?_, ?_, ?_, rest.numBits, rest.same⟩
  · intro number named
    exact rest.cleared number ((names number).mp named)
  · intro number inside free
    exact rest.kept number inside (fun named => free ((names number).mpr named))
  · intro page other located chosen
    cases page with
    | zero => simp_all
    | succ page =>
      rw [Nat.add_comm page, ← Nat.add_assoc]
      exact rest.discarded page other (by simpa using located) chosen
  · intro key unaffected
    refine rest.stored key ?_
    intro page other located chosen
    have apart := unaffected (page + 1) other (by simpa using located) chosen
    omega

/-- A page in memory gives up its frame before the rest is released. -/
theorem Released.free {before after : Kernel} {entries : List TranslationEntry} {address : Nat}
    {entry : TranslationEntry} {number : Nat} (named : entry.physicalPage = number)
    (inside : number < numPhysPages) (bits : before.physicalPageMap.numBits = numPhysPages)
    (rest : Released ({ before with
      physicalPageMap := before.physicalPageMap.clearBit number }.setFrame number zeroPage) after
      entries (address + 1)) :
    Released before after (entry :: entries) address := by
  have present : entry.physicalPage ≠ noPhysicalPage := by
    rw [named, noPhysicalPage]
    omega
  have names : ∀ other, namedBy (entry :: entries) other ↔ other = number ∨ namedBy entries other := by
    intro other
    simp only [namedBy, List.mem_cons, exists_eq_or_imp, named]
    constructor
    · rintro (same | later)
      · exact .inl (by omega)
      · exact .inr later
    · rintro (same | later)
      · exact .inl (by omega)
      · exact .inr later
  refine ⟨?_, ?_, ?_, ?_, rest.numBits, ?_⟩
  · intro other among
    by_cases later : namedBy entries other
    · exact rest.cleared other later
    · obtain rfl | later' := (names other).mp among
      · obtain ⟨frame, bit⟩ := rest.kept other inside later
        refine ⟨frame.trans ?_, bit.trans ?_⟩
        · simp [Kernel.frame, Kernel.setFrame]
        · simp [Kernel.setFrame, BitMap.testBit_clearBit _ _ _ (bits ▸ inside)]
      · exact absurd later' later
  · intro other within free
    have apart : other ≠ number ∧ ¬ namedBy entries other := by
      simpa [names] using free
    obtain ⟨frame, bit⟩ := rest.kept other within apart.2
    refine ⟨frame.trans ?_, bit.trans ?_⟩
    · simp [Kernel.frame, Kernel.setFrame, Blocks.block_setBlock, apart.1]
    · simp [Kernel.setFrame, BitMap.testBit_clearBit _ _ _ (bits ▸ within), Ne.symm apart.1]
  · intro page other located chosen
    cases page with
    | zero =>
      simp only [List.getElem?_cons_zero, Option.some.injEq] at located
      subst located
      simp [discards, present] at chosen
    | succ page =>
      rw [Nat.add_comm page, ← Nat.add_assoc]
      exact rest.discarded page other (by simpa using located) chosen
  · intro key unaffected
    refine rest.stored key ?_
    intro page other located chosen
    have apart := unaffected (page + 1) other (by simpa using located) chosen
    omega
  · rw [rest.same]
    rfl

/-- A page in the backing store gives up its oldest copy before the rest is released. -/
theorem Released.discard {before after : Kernel} {entries : List TranslationEntry} {address : Nat}
    {entry : TranslationEntry} (chosen : discards entry = true)
    (held : before.backingStore.copies address ≠ [])
    (rest : Released { before with backingStore := before.backingStore.erase address } after
      entries (address + 1)) :
    Released before after (entry :: entries) address := by
  have absent : entry.physicalPage = noPhysicalPage := by
    simp only [discards, Bool.and_eq_true, beq_iff_eq] at chosen
    exact chosen.1.1
  have names : ∀ number, namedBy (entry :: entries) number ↔ namedBy entries number := by
    intro number
    have other : entry.physicalPage ≠ number := by
      rw [absent, noPhysicalPage]
      omega
    simp [namedBy, other]
  refine ⟨?_, ?_, ?_, ?_, rest.numBits, ?_⟩
  · intro number named
    exact rest.cleared number ((names number).mp named)
  · intro number inside free
    exact rest.kept number inside (fun named => free ((names number).mpr named))
  · intro page other located picked
    cases page with
    | zero =>
      refine ⟨held, ?_⟩
      rw [Nat.add_zero, rest.stored address (fun page _ _ _ => by omega)]
      simp [Map.copies_erase]
    | succ page =>
      obtain ⟨present, removed⟩ := rest.discarded page other (by simpa using located) picked
      have apart : address ≠ address + 1 + page := by omega
      simp only [Map.copies_erase, apart, if_false] at present removed
      rw [Nat.add_comm page, ← Nat.add_assoc]
      exact ⟨present, removed⟩
  · intro key unaffected
    have here : address ≠ key := unaffected 0 entry (by simp) chosen
    rw [rest.stored key, Map.copies_erase, if_neg here]
    intro page other located picked
    have apart := unaffected (page + 1) other (by simpa using located) picked
    omega
  · rw [rest.same]

/-- The loop of the destructor does what its entries ask for. -/
theorem Kernel.releasePages_spec {entries : List TranslationEntry} :
    ∀ {kernel after : Kernel} {address : Nat},
      kernel.physicalPageMap.numBits = numPhysPages →
      kernel.releasePages entries address = .ok after →
      Released kernel after entries address := by
  -- Each entry takes one of the three branches of the loop body.
  induction entries with
  | nil =>
    intro kernel after address bits released
    simp only [Kernel.releasePages, Except.ok.injEq] at released
    subst released
    exact ⟨by simp [namedBy], fun _ _ _ => ⟨rfl, rfl⟩, by simp, fun _ _ => rfl, rfl, rfl⟩
  | cons entry entries ih =>
    intro kernel after address bits released
    rw [Kernel.releasePages] at released
    split at released
    · obtain ⟨map, cleared, released⟩ := Runs.bind_eq_ok.mp released
      obtain ⟨number, named, released⟩ := Runs.bind_eq_ok.mp released
      obtain ⟨framed, inside⟩ := frameNumber_ok named
      rw [framed] at cleared
      rw [BitMap.clear_ok cleared] at released
      exact Released.free framed inside bits (ih bits released)
    · rename_i absent
      simp only [ne_eq, Decidable.not_not] at absent
      split at released
      · rename_i chosen
        obtain ⟨removed, removing, released⟩ := Runs.bind_eq_ok.mp released
        obtain ⟨store, erased, removing⟩ := Runs.bind_eq_ok.mp removing
        simp only [Pure.pure, Except.pure, Except.ok.injEq] at removing
        unfold Map.remove at erased
        split at erased
        · simp at erased
        · rename_i contents held
          simp only [Except.ok.injEq] at erased
          subst erased removing
          refine Released.discard (by simpa [discards, absent] using chosen) ?_ (ih bits released)
          intro empty
          rw [Map.get?_eq_head, empty] at held
          simp at held
      · rename_i left
        exact Released.skip absent (by simpa [discards, absent] using left) (ih bits released)

/-- The loop of the destructor ends when every page it looks for is there. -/
theorem Kernel.releasePages_ends {entries : List TranslationEntry} :
    ∀ {kernel : Kernel} {address : Nat},
      kernel.physicalPageMap.numBits = numPhysPages →
      (∀ entry ∈ entries, entry.physicalPage = noPhysicalPage ∨
        ∃ number : Nat, entry.physicalPage = number ∧ number < numPhysPages) →
      (∀ page entry, entries[page]? = some entry → discards entry = true →
        kernel.backingStore.copies (address + page) ≠ []) →
      ∃ after, kernel.releasePages entries address = .ok after := by
  induction entries with
  | nil => exact fun _ _ _ => ⟨_, rfl⟩
  | cons entry entries ih =>
    intro kernel address bits framed held
    have framed' := fun other member => framed other (List.mem_cons_of_mem entry member)
    have held' : ∀ page other, entries[page]? = some other → discards other = true →
        kernel.backingStore.copies (address + 1 + page) ≠ [] := by
      intro page other located chosen
      rw [Nat.add_right_comm, Nat.add_assoc]
      exact held (page + 1) other (by simpa using located) chosen
    rw [Kernel.releasePages]
    rcases framed entry (by simp) with absent | ⟨number, named, inside⟩
    · simp only [absent, ne_eq, not_true_eq_false, if_false]
      split
      · rename_i chosen
        have present := held 0 entry (by simp) (by simpa [discards, absent] using chosen)
        obtain ⟨first, rest, copies⟩ := List.exists_cons_of_ne_nil present
        have found : kernel.backingStore.get? address = some first := by
          rw [Map.get?_eq_head, ← Nat.add_zero address, copies]
          rfl
        simp only [Kernel.removeStored, Map.remove, found, Bind.bind, Except.bind, Pure.pure,
          Except.pure]
        refine ih bits framed' ?_
        intro page other located picked
        rw [Map.copies_erase, if_neg (by omega)]
        exact held' page other located picked
      · exact ih bits framed' held'
    · have present : entry.physicalPage ≠ noPhysicalPage := by
        rw [named, noPhysicalPage]
        omega
      have cleared : kernel.physicalPageMap.clear entry.physicalPage =
          .ok (kernel.physicalPageMap.clearBit number) := by
        simp [BitMap.clear, BitMap.inRange, named, bits, inside]
      have number_ok : frameNumber entry.physicalPage = .ok number := by
        simp [frameNumber, named, inside]
      simp only [present, ne_eq, not_false_eq_true, if_true, cleared, number_ok, Bind.bind,
        Except.bind]
      exact ih bits framed' held'

/-- The pages of a thread are the entries of its table, seen without their use bits. -/
theorem InvertedTable.view_of_get? {table : InvertedTable} {thread : Thread} {space : AddrSpace}
    (found : table.get? thread = some space) (page : Nat) :
    table.view ⟨thread, page⟩ = space.pageTable[page]?.map clearUse := by
  simp [view_eq, found]

/-- A thread occupies exactly the frames its entries name. -/
theorem InvertedTable.occupies_iff {table : InvertedTable} {thread : Thread} {space : AddrSpace}
    (found : table.get? thread = some space) (number : Nat) :
    table.Occupies thread number ↔ namedBy space.pageTable number := by
  simp only [Occupies, view_of_get? found, Option.map_eq_some_iff, namedBy]
  constructor
  · rintro ⟨page, _, ⟨entry, located, rfl⟩, named⟩
    exact ⟨entry, List.mem_of_getElem? located, named⟩
  · rintro ⟨entry, member, named⟩
    obtain ⟨page, located⟩ := List.getElem?_of_mem member
    exact ⟨page, clearUse entry, ⟨entry, located, rfl⟩, named⟩

/-- Destroying an address space does what its entries ask for and forgets them. -/
theorem Kernel.destroy_spec {kernel after : Kernel} {thread : Thread}
    (bits : kernel.physicalPageMap.numBits = numPhysPages)
    (distinct : kernel.invertedTable.getKeys.Nodup)
    (destroyed : kernel.destroy thread = .ok after) : Destroyed kernel after thread := by
  unfold Kernel.destroy at destroyed
  split at destroyed
  · simp at destroyed
  · rename_i space found
    obtain ⟨middle, releasing, destroyed⟩ := Runs.bind_eq_ok.mp destroyed
    obtain ⟨table, removing, destroyed⟩ := Runs.bind_eq_ok.mp destroyed
    simp only [Pure.pure, Except.pure, Except.ok.injEq] at destroyed
    have released := releasePages_spec bits releasing
    have same : middle.invertedTable = kernel.invertedTable := by rw [released.same]
    have address : ∀ page, kernel.invertedTable.entryAddress ⟨thread, page⟩ = space.address + page := by
      intro page
      simp [InvertedTable.entryAddress, found]
    have removed : table = kernel.invertedTable.erase thread := by
      rw [same, Map.remove, found] at removing
      simpa using removing.symm
    subst destroyed removed
    refine ⟨?_, ?_, ?_, ?_, ?_, ?_, ?_, released.numBits, ?_, ?_⟩
    · intro ref
      simp only [InvertedTable.entry, Map.get?_erase _ distinct]
      split <;> simp
    · exact Map.getKeys_erase _ _
    · intro other
      simp only [InvertedTable.home, Map.get?_erase _ distinct]
      split <;> simp
    · intro number occupied
      exact released.cleared number ((InvertedTable.occupies_iff found number).mp occupied)
    · intro number inside free
      refine released.kept number inside ?_
      rwa [← InvertedTable.occupies_iff found]
    · intro page entry seen chosen
      rw [InvertedTable.view_of_get? found, Option.map_eq_some_iff] at seen
      obtain ⟨original, located, rfl⟩ := seen
      rw [address]
      exact released.discarded page original located chosen
    · intro key unaffected
      refine released.stored key ?_
      intro page entry located chosen
      rw [← address]
      refine unaffected page (clearUse entry) ?_ chosen
      rw [InvertedTable.view_of_get? found, located]
      rfl
    · rw [released.same]
    · rw [released.same]

/-- An address space can be destroyed when every page it has to discard is stored. -/
theorem Kernel.destroy_ends {kernel : Kernel} {thread : Thread} (ready : Ready kernel)
    (registered : thread ∈ kernel.invertedTable.getKeys)
    (stored : ∀ page entry, kernel.invertedTable.view ⟨thread, page⟩ = some entry →
      discards entry = true →
      kernel.backingStore.copies (kernel.invertedTable.entryAddress ⟨thread, page⟩) ≠ []) :
    ∃ after, kernel.destroy thread = .ok after := by
  obtain ⟨space, found⟩ := (Map.mem_getKeys _ _).mp registered
  have seen : ∀ {page entry}, space.pageTable[page]? = some entry →
      kernel.invertedTable.view ⟨thread, page⟩ = some (clearUse entry) := by
    intro page entry located
    rw [InvertedTable.view_of_get? found, located]
    rfl
  obtain ⟨middle, releasing⟩ : ∃ middle,
      kernel.releasePages space.pageTable space.address = .ok middle := by
    refine releasePages_ends ready.bits ?_ ?_
    · intro entry member
      obtain ⟨page, located⟩ := List.getElem?_of_mem member
      exact ready.framed ⟨thread, page⟩ (clearUse entry) (seen located)
    · intro page entry located chosen
      have held := stored page (clearUse entry) (seen located) chosen
      simpa [InvertedTable.entryAddress, found] using held
  have same : middle.invertedTable = kernel.invertedTable := by
    rw [(releasePages_spec ready.bits releasing).same]
  exact ⟨_, by simp only [Kernel.destroy, found, releasing, Bind.bind, Except.bind, same,
    Map.remove]; rfl⟩

/-- A fault or a hit is all that can come of a reference. -/
theorem Kernel.raise_spec {kernel after : Kernel} {thread : Thread} {addr : BitVec 32}
    {size : Nat} {writing : Bool} {trap : Trap} (ready : Ready kernel)
    (trapped : trap = .exception .pageFault →
      translate (.tlb kernel.tlb) addr size writing = .error (.exception .pageFault))
    (raised : kernel.raise thread addr trap = .ok after) :
    Missed kernel addr size ∧ ∃ home slot number origin,
      kernel.invertedTable.home thread = some home ∧
      Faulted kernel after ⟨thread, virtualPageNumber addr⟩ home.2 slot number origin := by
  unfold Kernel.raise at raised
  split at raised
  · obtain ⟨aligned, missed⟩ := translate_tlb_pageFault.mp (trapped rfl)
    exact ⟨⟨aligned, missed⟩, pageFaultException_spec ready raised⟩
  · simp at raised

/-- A translation by the TLB is a hit in one of its slots. -/
theorem Hit.of_translate {kernel : Kernel} {addr : BitVec 32} {size physAddr : Nat}
    {writing : Bool} {table : TranslationTable}
    (done : translate (.tlb kernel.tlb) addr size writing = .ok (physAddr, table)) :
    ∃ slot cached number, Hit kernel addr size writing slot cached number ∧
      physAddr = number * pageSize + pageOffset addr ∧
      table = .tlb (kernel.tlb.modify slot (·.touch writing)) := by
  obtain ⟨slot, cached, number, hit, address, rfl⟩ := translate_ok done
  obtain ⟨other, located, valid, named⟩ := findEntry_tlb_ok hit.found
  have same : other = cached := by
    have both := located.symm.trans hit.located
    simpa using both
  subst same
  exact ⟨slot, other, number, ⟨hit, located, valid, named⟩, address, rfl⟩

/-- Every step of the system does what its action says. -/
theorem step_spec {kernel after : Kernel} {action : Action} (ready : Ready kernel)
    (distinct : kernel.invertedTable.getKeys.Nodup) (stepped : step kernel action = .ok after) :
    Stepped kernel action after := by
  cases action with
  | exec thread file address =>
    simp only [step] at stepped
    split at stepped
    · rename_i magic
      cases registering : kernel.leave.register thread (AddrSpace.ofExecutable file address) with
      | error fault => simp [registering] at stepped
      | ok middle =>
        simp only [registering, Except.ok.injEq] at stepped
        obtain ⟨same, created⟩ := Kernel.register_spec registering
          (AddrSpace.ofExecutable_blank file address)
        obtain ⟨table, left⟩ := kernel.leave_eq
        subst stepped
        have keys := created.keys
        rw [Kernel.getKeys_leave] at keys
        refine .exec magic ⟨by simpa using created.fresh, ?_, ?_, keys, ?_⟩ ?_ rfl ?_
        · intro ref entry seen
          have apart := created.apart ref (kernel.saved entry) (by rw [Kernel.view_leave, seen]; rfl)
          simpa [AddrSpace.ofExecutable] using apart
        · intro ref
          have view := created.views ref
          simp only [Kernel.view_leave, Option.map_id_fun, id] at view
          simpa [Kernel.arrive, Kernel.restoreState, AddrSpace.ofExecutable] using view
        · intro other
          simpa [Kernel.arrive, Kernel.restoreState, AddrSpace.ofExecutable] using created.homes other
        · rw [same, left]
          rfl
        · rw [same, left]
          exact ⟨rfl, rfl, rfl, rfl⟩
    · simp at stepped
  | fork thread address =>
    simp only [step] at stepped
    cases running : kernel.currentThread with
    | none => simp [running] at stepped
    | some father =>
      cases found : kernel.invertedTable.get? father with
      | none => simp [running, found] at stepped
      | some space =>
        simp only [running, Option.bind_some, found] at stepped
        have open_ : ∀ entry ∈ space.pageTable, entry.readOnly = false := by
          intro entry member
          obtain ⟨page, located⟩ := List.getElem?_of_mem member
          refine ready.writable ⟨father, page⟩ (clearUse entry) ?_
          rw [InvertedTable.view_of_get? found, located]
          rfl
        obtain ⟨same, created⟩ := Kernel.register_spec stepped
          (AddrSpace.ofFather_blank open_ address)
        have length : (space.ofFather address).pageTable.length = space.pageTable.length := by
          simp [AddrSpace.ofFather]
        rw [length] at created
        have filed : (kernel.invertedTable.home father).map Prod.snd = some space.file := by
          simp [InvertedTable.home, found]
        refine .fork running filed ?_ created (by rw [same]) (by rw [same])
          (by rw [same]; exact ⟨rfl, rfl, rfl, rfl⟩)
        intro page
        rw [InvertedTable.view_of_get? found]
        simp
  | exit =>
    simp only [step] at stepped
    cases running : kernel.currentThread with
    | none => simp [running] at stepped
    | some thread =>
      simp only [running] at stepped
      cases destroying : kernel.destroy thread with
      | error fault => simp [destroying] at stepped
      | ok middle =>
        simp only [destroying, Except.ok.injEq] at stepped
        subst stepped
        have destroyed := Kernel.destroy_spec ready.bits distinct destroying
        exact .exit running ⟨destroyed.entries, destroyed.keys, destroyed.homes, destroyed.cleared,
          destroyed.kept, destroyed.discarded, destroyed.stored, destroyed.numBits, destroyed.tlb,
          destroyed.tlbIndex⟩ rfl
  | switchTo thread =>
    simp only [step] at stepped
    split at stepped
    · rename_i member
      simp only [Except.ok.injEq] at stepped
      subst stepped
      obtain ⟨table, left⟩ := kernel.leave_eq
      refine .switchTo member ?_ ?_ ?_ ?_ rfl ?_
      · intro ref
        exact kernel.view_leave ref
      · exact kernel.getKeys_leave
      · intro other
        exact kernel.home_leave other
      · rw [left]
        rfl
      · rw [left]
        exact ⟨rfl, rfl, rfl, rfl⟩
    · simp at stepped
  | load addr size =>
    simp only [step] at stepped
    cases running : kernel.currentThread with
    | none => simp [running] at stepped
    | some thread =>
      simp only [running] at stepped
      cases reading : readMem (.tlb kernel.tlb) kernel.mainMemory addr size with
      | error trap =>
        simp only [reading] at stepped
        obtain ⟨missed, home, slot, number, origin, located, faulted⟩ :=
          Kernel.raise_spec ready (fun which => readMem_pageFault.mp (which ▸ reading)) stepped
        exact .fault running rfl missed located faulted
      | ok result =>
        obtain ⟨value, table⟩ := result
        simp only [reading, Except.ok.injEq] at stepped
        subst stepped
        obtain ⟨physAddr, translated, decoded⟩ := readMem_ok reading
        obtain ⟨slot, cached, number, hit, rfl, rfl⟩ := Hit.of_translate translated
        exact .load running hit decoded
  | store addr size value =>
    simp only [step] at stepped
    cases running : kernel.currentThread with
    | none => simp [running] at stepped
    | some thread =>
      simp only [running] at stepped
      cases writing : writeMem (.tlb kernel.tlb) kernel.mainMemory addr size value with
      | error trap =>
        simp only [writing] at stepped
        obtain ⟨missed, home, slot, number, origin, located, faulted⟩ :=
          Kernel.raise_spec ready (fun which => writeMem_pageFault.mp (which ▸ writing)) stepped
        exact .fault running rfl missed located faulted
      | ok result =>
        obtain ⟨memory, table⟩ := result
        simp only [writing, Except.ok.injEq] at stepped
        subst stepped
        obtain ⟨physAddr, bytes, translated, encoded, rfl⟩ := writeMem_ok writing
        obtain ⟨slot, cached, number, hit, rfl, rfl⟩ := Hit.of_translate translated
        exact .store running hit encoded

end Nachos.Vm
