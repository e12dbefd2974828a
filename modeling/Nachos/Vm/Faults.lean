import Nachos.Machine.TranslateLaws
import Nachos.Vm.SecondChance

/-! Everything one page fault can do, said once. -/

namespace Nachos.Vm

/-- How the handler came by the frame it maps the page to. -/
inductive Origin where
  /-- The page was in memory and only missing from the TLB. -/
  | resident
  /-- A free frame was filled from the executable. -/
  | free
  /-- The frame of a victim was filled from the executable. -/
  | evicted (victim : PageRef)
  /-- The frame of a victim was filled from the backing store. -/
  | swapped (victim : PageRef) (contents : Page)

/-- The page that lost its frame, if one did. -/
def Origin.victim : Origin → Option PageRef
  | .resident | .free => none
  | .evicted victim | .swapped victim _ => some victim

/-- What the handler leaves in the entry of a page, seen without its use bit. -/
def Origin.change (origin : Origin) (page : PageRef) (number : Nat) (ref : PageRef)
    (entry : TranslationEntry) : TranslationEntry :=
  if ref = page then { entry with physicalPage := number, valid := true }
  else if origin.victim = some ref then
    { entry with physicalPage := noPhysicalPage, valid := true }
  else entry

/-- The memory the handler leaves. -/
def Origin.memory (origin : Origin) (memory : Memory) (number : Nat) (initial : Page) : Memory :=
  match origin with
  | .resident => memory
  | .free | .evicted _ => Blocks.setBlock pageSize memory number initial
  | .swapped _ contents => Blocks.setBlock pageSize memory number contents

/-- The frame map the handler leaves: taking a frame over by eviction unmarks it. -/
def Origin.map (origin : Origin) (map : BitMap) (number : Nat) : BitMap :=
  match origin with
  | .resident | .swapped _ _ => map
  | .free => map.markBit number
  | .evicted _ => map.clearBit number

/-- The backing store the handler leaves. -/
def Origin.store (origin : Origin) (kernel : Kernel) (page : PageRef) (number : Nat) :
    Map Nat Page :=
  match origin with
  | .resident | .free => kernel.backingStore
  | .evicted victim =>
    kernel.backingStore.insert (kernel.invertedTable.entryAddress victim) (kernel.frame number)
  | .swapped victim _ =>
    (kernel.backingStore.insert (kernel.invertedTable.entryAddress victim)
      (kernel.frame number)).erase (kernel.invertedTable.entryAddress page)

/-- What the handler must have found for the frame to come from where it came from. -/
def Origin.Justified (origin : Origin) (kernel : Kernel) (page : PageRef) (number : Nat)
    (entry : TranslationEntry) : Prop :=
  match origin with
  | .resident => entry.physicalPage = number
  | .free => entry.physicalPage = noPhysicalPage ∧ fromStore entry = false ∧
      kernel.physicalPageMap.testBit number = false ∧
      ∀ earlier, earlier < number → kernel.physicalPageMap.testBit earlier = true
  | .evicted _ => entry.physicalPage = noPhysicalPage ∧ fromStore entry = false ∧
      kernel.physicalPageMap.find = none
  | .swapped victim contents => entry.physicalPage = noPhysicalPage ∧ fromStore entry = true ∧
      (kernel.backingStore.insert (kernel.invertedTable.entryAddress victim)
        (kernel.frame number)).get? (kernel.invertedTable.entryAddress page) = some contents

/--
The handler took the kernel from one state to another.

The page now has the numbered frame, the TLB slot caches it, and the origin tells the rest.
-/
structure Faulted (before after : Kernel) (page : PageRef) (file : Executable) (slot number : Nat)
    (origin : Origin) : Prop where
  inside : number < numPhysPages
  justified : ∃ entry, before.invertedTable.view page = some entry ∧
    origin.Justified before page number (syncAll before.tlb entry)
  ousted : ∀ victim, origin.victim = some victim → victim ≠ page ∧
    ∃ out, before.invertedTable.view victim = some out ∧ out.physicalPage = number
  selected : ∀ victim, origin.victim = some victim →
    before.updataPageTables.invertedTable.nextVictim before.physicalIndex = some victim
  views : ∀ ref, after.invertedTable.view ref = (before.invertedTable.view ref).map
    fun entry => origin.change page number ref (syncAll before.tlb entry)
  keys : after.invertedTable.getKeys = before.invertedTable.getKeys
  homes : ∀ thread, after.invertedTable.home thread = before.invertedTable.home thread
  tlb : ∃ searched cached, secondChanceTlb before.tlb before.tlbIndex = .ok (searched, slot) ∧
    after.tlb = searched.set slot cached ∧
    after.invertedTable.view page = some (clearUse cached)
  tlbIndex : after.tlbIndex = (slot + 1) % tlbSize
  currentThread : after.currentThread = before.currentThread
  memory : after.mainMemory = origin.memory before.mainMemory number (initialPage file page.page)
  map : after.physicalPageMap = origin.map before.physicalPageMap number
  store : after.backingStore = origin.store before page number

/-- Following a pointer finds the entry it points to. -/
theorem deref_ok {table : InvertedTable} {ref : PageRef} {entry : TranslationEntry}
    (found : table.deref ref = .ok entry) : table.entry ref = some entry := by
  unfold InvertedTable.deref at found
  cases located : table.entry ref with
  | none => simp [located] at found
  | some other =>
    simp only [located, Except.ok.injEq] at found
    rw [found]

/-- The fields of a kernel that bringing a page in decides, from where it got the frame. -/
structure BroughtIn (before after : Kernel) (page : PageRef) (file : Executable) (number : Nat)
    (origin : Origin) : Prop where
  inside : number < numPhysPages
  justified : ∃ entry, before.invertedTable.entry page = some entry ∧
    origin.Justified before page number entry
  ousted : ∀ victim, origin.victim = some victim → victim ≠ page ∧
    ∃ out, before.invertedTable.view victim = some out ∧ out.physicalPage = number
  selected : ∀ victim, origin.victim = some victim →
    before.invertedTable.nextVictim before.physicalIndex = some victim
  views : ∀ ref, (after.invertedTable.modifyEntry page referenced).view ref =
    (before.invertedTable.view ref).map (origin.change page number ref)
  keys : after.invertedTable.getKeys = before.invertedTable.getKeys
  homes : ∀ thread, after.invertedTable.home thread = before.invertedTable.home thread
  tlb : after.tlb = before.tlb
  tlbIndex : after.tlbIndex = before.tlbIndex
  currentThread : after.currentThread = before.currentThread
  memory : after.mainMemory = origin.memory before.mainMemory number (initialPage file page.page)
  map : after.physicalPageMap = origin.map before.physicalPageMap number
  store : after.backingStore = origin.store before page number

section Blind

variable (entry : TranslationEntry)

/-- Evicting does not look at the use bit. -/
theorem evicted_blind : clearUse (evicted (clearUse entry)) = clearUse (evicted entry) := rfl

/-- Installing does not look at the use bit. -/
theorem installed_blind (physicalPage : Int) :
    clearUse (installed physicalPage (clearUse entry)) = clearUse (installed physicalPage entry) :=
  rfl

/-- Referencing does not look at the use bit. -/
theorem referenced_blind : clearUse (referenced (clearUse entry)) = clearUse (referenced entry) :=
  rfl

end Blind

/-- An entry behind a pointer is seen through its view. -/
theorem view_of_entry {table : InvertedTable} {ref : PageRef} {entry : TranslationEntry}
    (found : table.entry ref = some entry) : table.view ref = some (clearUse entry) := by
  simp [InvertedTable.view, found]

/-- Entries seen in a view have their use bit masked out. -/
theorem clearUse_of_view {table : InvertedTable} {ref : PageRef} {entry : TranslationEntry}
    (seen : table.view ref = some entry) : clearUse entry = entry := by
  obtain ⟨original, -, rfl⟩ := InvertedTable.view_eq_some.mp seen
  rfl

/-- The handler leaves the entries of all other pages alone. -/
theorem Origin.change_other {origin : Origin} {page ref : PageRef} (number : Nat)
    (differ : ref ≠ page) (safe : origin.victim ≠ some ref) :
    origin.change page number ref = id := by
  funext entry
  simp [Origin.change, differ, safe]

/-- The faulting page ends up valid in its frame. -/
theorem Origin.change_page (origin : Origin) (page : PageRef) (number : Nat)
    (entry : TranslationEntry) : origin.change page number page entry =
      { entry with physicalPage := number, valid := true } := by
  simp [Origin.change]

/-- The victim ends up valid without a frame. -/
theorem Origin.change_victim {origin : Origin} {page victim : PageRef} (number : Nat)
    (differ : victim ≠ page) (lost : origin.victim = some victim) (entry : TranslationEntry) :
    origin.change page number victim entry =
      { entry with physicalPage := noPhysicalPage, valid := true } := by
  simp [Origin.change, differ, lost]

/-- Mapping a page to the frame it has only marks it as referenced. -/
theorem views_resident {table : InvertedTable} {page : PageRef} {entry : TranslationEntry}
    {number : Nat} (found : table.entry page = some entry) (named : entry.physicalPage = number)
    (ref : PageRef) :
    (table.modifyEntry page referenced).view ref =
      (table.view ref).map (Origin.resident.change page number ref) := by
  rw [InvertedTable.view_modifyEntry table page ref referenced_blind]
  by_cases same : ref = page
  · subst same
    simp [view_of_entry found, Origin.change_page, clearUse, referenced, named]
  · rw [if_neg same, Origin.change_other number same (by simp [Origin.victim]), Option.map_id]
    rfl

/-- Mapping a page to a frame that no other page loses. -/
theorem views_free (table : InvertedTable) (page : PageRef) (number : Nat) (ref : PageRef) :
    ((table.modifyEntry page (installed number)).modifyEntry page referenced).view ref =
      (table.view ref).map (Origin.free.change page number ref) := by
  rw [InvertedTable.view_modifyEntry _ page ref referenced_blind,
    InvertedTable.view_modifyEntry _ page ref fun entry => installed_blind entry number]
  by_cases same : ref = page
  · subst same
    cases seen : table.view ref with
    | none => simp
    | some entry =>
      rw [← clearUse_of_view seen]
      simp [Origin.change_page, clearUse, referenced, installed]
  · rw [if_neg same, if_neg same, Origin.change_other number same (by simp [Origin.victim]),
      Option.map_id]
    rfl

/-- Mapping a page to the frame of a victim, in the order `pageOut` and the handler work. -/
theorem views_evicted {table : InvertedTable} {page victim : PageRef} (differ : victim ≠ page)
    (number : Nat) {origin : Origin} (lost : origin.victim = some victim) (ref : PageRef) :
    (((table.modifyEntry victim evicted).modifyEntry page (installed number)).modifyEntry page
      referenced).view ref = (table.view ref).map (origin.change page number ref) := by
  rw [InvertedTable.view_modifyEntry _ page ref referenced_blind,
    InvertedTable.view_modifyEntry _ page ref fun entry => installed_blind entry number,
    InvertedTable.view_modifyEntry _ victim ref evicted_blind]
  cases seen : table.view ref with
  | none => simp
  | some entry =>
    rw [← clearUse_of_view seen]
    by_cases same : ref = page
    · subst same
      simp [Ne.symm differ, Origin.change_page, clearUse, referenced, installed]
    · by_cases taken : ref = victim
      · subst taken
        simp [same, Origin.change_victim number differ lost, clearUse, evicted]
      · have safe : origin.victim ≠ some ref := by simp [lost, Ne.symm taken]
        simp [same, taken, Origin.change_other number same safe]

/-- Mapping a page to the frame of a victim, in the order `pageIn` works. -/
theorem views_swapped {table : InvertedTable} {page victim : PageRef} (differ : victim ≠ page)
    (number : Nat) {origin : Origin} (lost : origin.victim = some victim) (ref : PageRef) :
    ((((table.modifyEntry page (installed number)).modifyEntry victim evicted).modifyEntry page
      referenced).modifyEntry page referenced).view ref =
      (table.view ref).map (origin.change page number ref) := by
  rw [InvertedTable.view_modifyEntry _ page ref referenced_blind,
    InvertedTable.view_modifyEntry _ page ref referenced_blind,
    InvertedTable.view_modifyEntry _ victim ref evicted_blind,
    InvertedTable.view_modifyEntry _ page ref fun entry => installed_blind entry number]
  cases seen : table.view ref with
  | none => simp
  | some entry =>
    rw [← clearUse_of_view seen]
    by_cases same : ref = page
    · subst same
      simp [Ne.symm differ, Origin.change_page, clearUse, referenced, installed]
    · by_cases taken : ref = victim
      · subst taken
        simp [same, Origin.change_victim number differ lost, clearUse, evicted]
      · have safe : origin.victim ≠ some ref := by simp [lost, Ne.symm taken]
        simp [same, taken, Origin.change_other number same safe]

/-- No page of a sound kernel is protected. -/
def Writable (table : InvertedTable) : Prop :=
  ∀ ref entry, table.view ref = some entry → entry.readOnly = false

/-- `pageOut` of a page that is not protected frees its frame and stores its bytes. -/
theorem Kernel.pageOut_spec {kernel after : Kernel} {victim : PageRef}
    (writable : Writable kernel.invertedTable) (paged : kernel.pageOut victim = .ok after) :
    ∃ out, ∃ number : Nat, kernel.invertedTable.entry victim = some out ∧
      out.physicalPage = number ∧ number < numPhysPages ∧
      after = { kernel with
        invertedTable := kernel.invertedTable.modifyEntry victim evicted
        physicalPageMap := kernel.physicalPageMap.clearBit number
        mainMemory := Blocks.setBlock pageSize kernel.mainMemory number zeroPage
        backingStore := kernel.backingStore.insert (kernel.invertedTable.entryAddress victim)
          (kernel.frame number) } := by
  unfold Kernel.pageOut at paged
  obtain ⟨out, found, paged⟩ := Runs.bind_eq_ok.mp paged
  obtain ⟨number, named, paged⟩ := Runs.bind_eq_ok.mp paged
  obtain ⟨map, cleared, paged⟩ := Runs.bind_eq_ok.mp paged
  obtain ⟨framed, inside⟩ := frameNumber_ok named
  have located := deref_ok found
  have open_ : out.readOnly = false := writable victim (clearUse out) (view_of_entry located)
  rw [framed] at cleared
  have freed := BitMap.clear_ok cleared
  simp only [open_, Bool.false_eq_true, if_false, Pure.pure, Except.pure, Except.ok.injEq] at paged
  exact ⟨out, number, located, framed, inside, by rw [← paged, freed]; rfl⟩

/-- Following a pointer in a table that differs in use bits finds the same page. -/
theorem InvertedTable.SameButUse.entry {before after : InvertedTable}
    (same : SameButUse before after) {ref : PageRef} {entry : TranslationEntry}
    (found : after.entry ref = some entry) :
    before.view ref = some (clearUse entry) := by
  rw [← same.views]
  exact view_of_entry found

/-- A victim has a frame, so it is not the page that has none. -/
theorem victim_ne_page {table : InvertedTable} {page victim : PageRef}
    {entry out : TranslationEntry} (found : table.entry page = some entry)
    (absent : entry.physicalPage = noPhysicalPage) (located : table.entry victim = some out)
    (framed : out.physicalPage ≠ noPhysicalPage) : victim ≠ page := by
  rintro rfl
  rw [found, Option.some.injEq] at located
  exact framed (located ▸ absent)

/-- What is read is the page. -/
theorem readPage_eq_ok {file : Executable} {vpn : Nat} {contents : Page}
    (read : readPage file vpn = .ok contents) : contents = initialPage file vpn := by
  unfold readPage at read
  unfold initialPage
  dsimp only at read ⊢
  split at read
  · rename_i early
    obtain ⟨bytes, found, filled⟩ := Runs.bind_eq_ok.mp read
    obtain rfl := Except.ok.inj filled
    rw [if_pos early]
    funext offset
    exact (Executable.readAt_getD found).2 offset offset.isLt
  · -- Pages behind the code and the data are not read from the file.
    rename_i late
    rw [if_neg late]
    exact (Except.ok.inj read).symm

/-- A page can be read if it does not begin in front of the file. -/
theorem exists_readPage {file : Executable} {vpn : Nat}
    (begins : (vpn : Int) < divRoundUp (file.header.code.size + file.header.initData.size).toInt
      pageSize → 0 ≤ (file.header.code.inFileAddr + BitVec.ofNat 32 (vpn * pageSize)).toInt) :
    ∃ contents, readPage file vpn = .ok contents := by
  unfold readPage
  dsimp only
  split
  · rename_i early
    obtain ⟨bytes, read⟩ := Executable.readAt_ok (BitVec.ofNat 32 pageSize) (begins early)
    exact ⟨_, Runs.bind_eq_ok.mpr ⟨bytes, read, rfl⟩⟩
  · exact ⟨zeroPage, rfl⟩

/-- The executable branch takes a free frame or evicts a victim. -/
theorem Kernel.loadPage_spec {kernel after : Kernel} {page : PageRef} {file : Executable}
    (bits : kernel.physicalPageMap.numBits = numPhysPages)
    (writable : Writable kernel.invertedTable) {entry : TranslationEntry}
    (found : kernel.invertedTable.entry page = some entry)
    (absent : entry.physicalPage = noPhysicalPage) (unstored : fromStore entry = false)
    (loaded : kernel.loadPage page file = .ok after) :
    ∃ number origin, BroughtIn kernel after page file number origin := by
  unfold Kernel.loadPage Kernel.availablePage Kernel.findPage at loaded
  cases searched : kernel.physicalPageMap.find with
  | some result =>
    obtain ⟨number, map⟩ := result
    obtain ⟨inside, clear, rfl, first⟩ := BitMap.find_spec searched
    simp only [searched, Runs.ok_bind, Pure.pure, Except.pure] at loaded
    obtain ⟨contents, read, loaded⟩ := Runs.bind_eq_ok.mp loaded
    obtain rfl := readPage_eq_ok read
    obtain rfl := Except.ok.inj loaded
    exact ⟨number, .free, by rw [← bits]; exact inside,
      ⟨entry, found, absent, unstored, clear, first⟩, by simp [Origin.victim],
      by simp [Origin.victim], views_free kernel.invertedTable page number, by simp, by simp, rfl, rfl, rfl, rfl, rfl, rfl⟩
  | none =>
    simp only [searched] at loaded
    obtain ⟨⟨number, freed⟩, obtained, loaded⟩ := Runs.bind_eq_ok.mp loaded
    obtain ⟨contents, read, loaded⟩ := Runs.bind_eq_ok.mp loaded
    obtain rfl := readPage_eq_ok read
    obtain ⟨⟨_, _⟩, sought, obtained⟩ := Runs.bind_eq_ok.mp obtained
    obtain ⟨⟨victim, choice⟩, chosen, picked⟩ := Runs.bind_eq_ok.mp sought
    simp only [Pure.pure, Except.pure, Except.ok.injEq, Prod.mk.injEq] at picked
    obtain ⟨rfl, rfl⟩ := picked
    obtain ⟨table, index, rfl, same, next, out, located, framed⟩ := chooseVictim_spec chosen
    obtain ⟨seen, followed, obtained⟩ := Runs.bind_eq_ok.mp obtained
    obtain ⟨taken, named, obtained⟩ := Runs.bind_eq_ok.mp obtained
    obtain ⟨_, paged, obtained⟩ := Runs.bind_eq_ok.mp obtained
    simp only [Pure.pure, Except.pure, Except.ok.injEq, Prod.mk.injEq] at obtained loaded
    obtain ⟨rfl, rfl⟩ := obtained
    -- The victim is read twice, and both readings name one frame.
    have open_ : Writable table := fun ref seen shown => writable ref seen (by rw [← same.views, shown])
    obtain ⟨again, number, followedAgain, framedAgain, inside, rfl⟩ := pageOut_spec open_ paged
    have agree : seen = again := by
      have both := (deref_ok followed).symm.trans followedAgain
      simpa using both
    obtain ⟨framed', -⟩ := frameNumber_ok named
    have numbers : taken = number := by
      rw [agree, framedAgain] at framed'
      exact_mod_cast framed'.symm
    have differ := victim_ne_page found absent located framed
    subst numbers loaded
    refine ⟨taken, .evicted victim, inside, ⟨entry, found, absent, unstored, searched⟩, ?_, ?_, ?_,
      ?_, ?_, rfl, rfl, rfl, ?_, rfl, ?_⟩
    · rintro other lost
      simp only [Origin.victim, Option.some.injEq] at lost
      subst lost
      exact ⟨differ, _, same.entry followedAgain, framedAgain⟩
    · rintro other lost
      exact next.trans lost
    · intro ref
      rw [← same.views]
      exact views_evicted differ taken rfl ref
    · simpa using same.keys
    · intro thread
      simpa using same.homes thread
    · simp [Kernel.setFrame, Origin.memory]
    · simp only [Kernel.setFrame, Origin.store, same.entryAddress]
      rfl

/-- The backing store branch exchanges the page with a victim. -/
theorem Kernel.swapPage_spec {kernel after : Kernel} {page : PageRef} {file : Executable}
    (writable : Writable kernel.invertedTable) {entry : TranslationEntry}
    (found : kernel.invertedTable.entry page = some entry)
    (absent : entry.physicalPage = noPhysicalPage) (stored : fromStore entry = true)
    (swapped : kernel.swapPage page = .ok after) :
    ∃ number origin, BroughtIn kernel after page file number origin := by
  unfold Kernel.swapPage at swapped
  obtain ⟨⟨victim, choice⟩, chosen, swapped⟩ := Runs.bind_eq_ok.mp swapped
  obtain ⟨table, index, rfl, same, next, out, located, framed⟩ := chooseVictim_spec chosen
  unfold Kernel.pageIn at swapped
  obtain ⟨seen, followed, swapped⟩ := Runs.bind_eq_ok.mp swapped
  obtain ⟨number, named, swapped⟩ := Runs.bind_eq_ok.mp swapped
  obtain ⟨framed', inside⟩ := frameNumber_ok named
  have view := same.entry (deref_ok followed)
  have open_ : seen.readOnly = false := writable victim (clearUse seen) view
  have differ := victim_ne_page found absent located framed
  simp only [open_, Bool.false_eq_true, if_false, same.entryAddress] at swapped
  split at swapped
  · simp at swapped
  · rename_i contents held
    obtain ⟨store, removed, swapped⟩ := Runs.bind_eq_ok.mp swapped
    simp only [Pure.pure, Except.pure, Except.ok.injEq] at swapped
    have erased : store = (kernel.backingStore.insert (kernel.invertedTable.entryAddress victim)
        (kernel.frame number)).erase (kernel.invertedTable.entryAddress page) := by
      unfold Map.remove at removed
      rw [held] at removed
      simp only [Except.ok.injEq] at removed
      exact removed.symm
    subst erased swapped
    refine ⟨number, .swapped victim contents, inside, ⟨entry, found, absent, stored, held⟩, ?_, ?_,
      ?_, ?_, ?_, rfl, rfl, rfl, rfl, rfl, rfl⟩
    · rintro other lost
      simp only [Origin.victim, Option.some.injEq] at lost
      subst lost
      exact ⟨differ, _, view, framed'⟩
    · rintro other lost
      exact next.trans lost
    · intro ref
      rw [← same.views, framed']
      exact views_swapped differ number rfl ref
    · simpa using same.keys
    · intro thread
      simpa using same.homes thread

/-- Bringing a page in does one of the four things an origin can say. -/
theorem Kernel.bringIn_spec {kernel after : Kernel} {page : PageRef} {file : Executable}
    (bits : kernel.physicalPageMap.numBits = numPhysPages)
    (writable : Writable kernel.invertedTable)
    (framed : ∀ ref entry, kernel.invertedTable.view ref = some entry →
      entry.physicalPage = noPhysicalPage ∨ ∃ number : Nat, entry.physicalPage = number ∧
        number < numPhysPages)
    (brought : kernel.bringIn page file = .ok after) :
    ∃ number origin, BroughtIn kernel after page file number origin := by
  unfold Kernel.bringIn at brought
  obtain ⟨entry, followed, brought⟩ := Runs.bind_eq_ok.mp brought
  have found := deref_ok followed
  split at brought
  · rename_i absent
    split at brought
    · rename_i stored
      exact swapPage_spec writable found absent stored brought
    · rename_i unstored
      exact loadPage_spec bits writable found absent (by simpa using unstored) brought
  · rename_i present
    simp only [Pure.pure, Except.pure, Except.ok.injEq] at brought
    subst brought
    rcases framed page _ (view_of_entry found) with absent | ⟨number, named, inside⟩
    · exact absurd absent present
    · exact ⟨number, .resident, inside, ⟨entry, found, named⟩, by simp [Origin.victim],
        by simp [Origin.victim], views_resident found named, rfl, fun _ => rfl, rfl, rfl, rfl, rfl, rfl, rfl⟩

/-- What the handler needs of the kernel to do no more than it should. -/
structure Ready (kernel : Kernel) : Prop where
  bits : kernel.physicalPageMap.numBits = numPhysPages
  writable : Writable kernel.invertedTable
  framed : ∀ ref entry, kernel.invertedTable.view ref = some entry →
    entry.physicalPage = noPhysicalPage ∨
      ∃ number : Nat, entry.physicalPage = number ∧ number < numPhysPages

/-- Synchronising keeps the kernel ready for the handler. -/
theorem Ready.updataPageTables {kernel : Kernel} (ready : Ready kernel) :
    Ready kernel.updataPageTables := by
  refine ⟨ready.bits, ?_, ?_⟩
  · intro ref entry seen
    rw [Kernel.view_updataPageTables, Option.map_eq_some_iff] at seen
    obtain ⟨old, before, rfl⟩ := seen
    simpa using ready.writable ref old before
  · intro ref entry seen
    rw [Kernel.view_updataPageTables, Option.map_eq_some_iff] at seen
    obtain ⟨old, before, rfl⟩ := seen
    simpa using ready.framed ref old before

/-- The reason for an origin looks at neither the TLB nor the bits the TLB is copied into. -/
theorem Origin.Justified.transfer {origin : Origin} {kernel : Kernel} {tlb : List TranslationEntry}
    {tlbIndex : Nat} {page : PageRef} {number : Nat} {entry : TranslationEntry}
    (reason : origin.Justified
      { kernel.updataPageTables with tlb := tlb, tlbIndex := tlbIndex } page number entry) :
    origin.Justified kernel page number (clearUse entry) := by
  cases origin with
  | resident => exact reason
  | free => exact reason
  | evicted victim => exact reason
  | swapped victim contents =>
    obtain ⟨absent, stored, held⟩ := reason
    rw [Kernel.entryAddress_updataPageTables, Kernel.entryAddress_updataPageTables] at held
    exact ⟨absent, stored, held⟩

/-- Everything the handler can do when it returns. -/
theorem Kernel.pageFaultException_spec {kernel after : Kernel} {thread : Thread}
    {addr : BitVec 32} (ready : Ready kernel)
    (handled : kernel.pageFaultException thread addr = .ok after) :
    ∃ space slot number origin, kernel.invertedTable.home thread = some space ∧
      Faulted kernel after ⟨thread, virtualPageNumber addr⟩ space.2 slot number origin := by
  unfold Kernel.pageFaultException at handled
  obtain ⟨⟨searched, slot⟩, found, handled⟩ := Runs.bind_eq_ok.mp handled
  dsimp only at handled
  split at handled
  · simp at handled
  · rename_i space located
    obtain ⟨brought, bringing, handled⟩ := Runs.bind_eq_ok.mp handled
    obtain ⟨cached, followed, handled⟩ := Runs.bind_eq_ok.mp handled
    simp only [Pure.pure, Except.pure, Except.ok.injEq] at handled
    have home : kernel.invertedTable.home thread = some (space.address, space.file) := by
      rw [← Kernel.home_updataPageTables, InvertedTable.home, located]
      rfl
    have ready' : Ready { kernel.updataPageTables with
        tlb := searched, tlbIndex := (slot + 1) % tlbSize } :=
      ⟨ready.bits, ready.updataPageTables.writable, ready.updataPageTables.framed⟩
    obtain ⟨number, origin, done⟩ := bringIn_spec ready'.bits ready'.writable ready'.framed bringing
    have views : ∀ ref, (brought.invertedTable.modifyEntry ⟨thread, virtualPageNumber addr⟩
        referenced).view ref = (kernel.invertedTable.view ref).map fun entry =>
          origin.change ⟨thread, virtualPageNumber addr⟩ number ref (syncAll kernel.tlb entry) := by
      intro ref
      rw [done.views]
      simp only [Kernel.view_updataPageTables, Option.map_map]
      rfl
    subst handled
    refine ⟨_, slot, number, origin, home, done.inside, ?_, ?_, done.selected, views, ?_, ?_, ?_,
      done.tlbIndex, done.currentThread, done.memory, done.map, ?_⟩
    · obtain ⟨entry, found, reason⟩ := done.justified
      rw [Kernel.entry_updataPageTables, Option.map_eq_some_iff] at found
      obtain ⟨old, before, rfl⟩ := found
      refine ⟨clearUse old, view_of_entry before, ?_⟩
      rw [← clearUse_syncAll]
      exact reason.transfer
    · intro victim lost
      obtain ⟨differ, out, seen, framed⟩ := done.ousted victim lost
      rw [Kernel.view_updataPageTables, Option.map_eq_some_iff] at seen
      obtain ⟨old, before, rfl⟩ := seen
      exact ⟨differ, old, before, by simpa using framed⟩
    · simpa using done.keys
    · intro other
      simpa using done.homes other
    · refine ⟨searched, cached, found, ?_, view_of_entry (deref_ok followed)⟩
      rw [done.tlb]
    · rw [done.store]
      cases origin <;> simp only [Origin.store, Kernel.entryAddress_updataPageTables] <;> rfl

/-- Registered threads stay registered when the tables are synchronised, with their executables. -/
theorem Kernel.get?_updataPageTables {kernel : Kernel} {thread : Thread} {space : AddrSpace}
    (found : kernel.invertedTable.get? thread = some space) :
    ∃ synced, kernel.updataPageTables.invertedTable.get? thread = some synced ∧
      synced.file = space.file := by
  have homes := kernel.home_updataPageTables thread
  rw [InvertedTable.home, InvertedTable.home, found, Option.map_some,
    Option.map_eq_some_iff] at homes
  obtain ⟨synced, found', same⟩ := homes
  exact ⟨synced, found', congrArg Prod.snd same⟩

/-- The handler brings the page in and caches its entry, once it has a slot for it. -/
theorem Kernel.pageFaultException_eq {kernel : Kernel} {thread : Thread} {addr : BitVec 32}
    {searched : List TranslationEntry} {slot : Nat} {synced : AddrSpace}
    (search : secondChanceTlb kernel.tlb kernel.tlbIndex = .ok (searched, slot))
    (found : kernel.updataPageTables.invertedTable.get? thread = some synced) :
    kernel.pageFaultException thread addr = (do
      let brought ← { kernel.updataPageTables with
        tlb := searched, tlbIndex := (slot + 1) % tlbSize }.bringIn
          ⟨thread, virtualPageNumber addr⟩ synced.file
      let table := brought.invertedTable.modifyEntry ⟨thread, virtualPageNumber addr⟩ referenced
      let entry ← table.deref ⟨thread, virtualPageNumber addr⟩
      return { brought with invertedTable := table, tlb := brought.tlb.set slot entry }) := by
  have search' : secondChanceTlb kernel.updataPageTables.tlb kernel.updataPageTables.tlbIndex =
      .ok (searched, slot) := search
  simp only [pageFaultException, search', Bind.bind, Except.bind, found]

end Nachos.Vm
