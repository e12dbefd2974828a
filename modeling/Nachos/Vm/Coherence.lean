import Nachos.Vm.Ownership

/-! When the TLB agrees with the page table of the running thread. -/

namespace Nachos.Vm

/-- Every valid slot translates a page of the running thread as its page table does, once. -/
structure Coherent (kernel : Kernel) : Prop where
  agrees : ∀ (thread : Thread) (slot : Nat) (cached : TranslationEntry), kernel.currentThread = some thread →
    kernel.tlb[slot]? = some cached → cached.valid = true → ∃ page : Nat,
      cached.virtualPage = page ∧
      kernel.invertedTable.frameOf ⟨thread, page⟩ = some cached.physicalPage ∧
      cached.physicalPage ≠ noPhysicalPage
  once : ∀ (thread : Thread) (first second : Nat) (one two : TranslationEntry),
    kernel.currentThread = some thread → kernel.tlb[first]? = some one → kernel.tlb[second]? = some two → one.valid = true →
    two.valid = true → one.virtualPage = two.virtualPage → first = second

/-- The page that the fault of an action takes the frame from, if it has to take one. -/
def Kernel.evicts (kernel : Kernel) (action : Action) : Option PageRef :=
  match kernel.faultingEntry action with
  | none => none
  | some entry =>
    if entry.physicalPage = noPhysicalPage ∧
        (fromStore entry = true ∨ kernel.physicalPageMap.find.isNone = true) then
      kernel.updataPageTables.invertedTable.nextVictim kernel.physicalIndex
    else none

/-- The TLB slot that second chance would replace. -/
def Kernel.replaces (kernel : Kernel) : Option Nat :=
  match secondChanceTlb kernel.tlb kernel.tlbIndex with
  | .ok (_, slot) => some slot
  | .error _ => none

/-- A slot of the TLB other than the one about to be replaced translates a page. -/
def Kernel.keepsCached (kernel : Kernel) (page : Nat) : Bool :=
  (List.range kernel.tlb.length).any fun slot =>
    kernel.replaces != some slot && kernel.tlb[slot]?.any (TranslationEntry.matchesPage page)

/-- The fault of an action evicts a page that stays in the TLB of the running thread. -/
def Kernel.evictsCached (kernel : Kernel) (action : Action) : Bool :=
  (kernel.evicts action).any fun victim =>
    kernel.currentThread == some victim.thread && kernel.keepsCached victim.page

/-- No page is evicted in this step while another TLB slot than the replaced one holds it. -/
def VictimUncached (kernel : Kernel) (action : Action) : Prop := kernel.evictsCached action = false

instance (kernel : Kernel) (action : Action) : Decidable (VictimUncached kernel action) :=
  inferInstanceAs (Decidable (_ = _))

/-- A page is kept in the TLB exactly when a valid slot for it is not replaced. -/
theorem Kernel.keepsCached_iff {kernel : Kernel} {page : Nat} :
    kernel.keepsCached page = true ↔ ∃ (slot : Nat) (cached : TranslationEntry), kernel.tlb[slot]? = some cached ∧
      cached.valid = true ∧ cached.virtualPage = page ∧ kernel.replaces ≠ some slot := by
  simp only [keepsCached, List.any_eq_true, List.mem_range, Bool.and_eq_true, bne_iff_ne,
    Option.any_eq_true, TranslationEntry.matchesPage, beq_iff_eq]
  constructor
  · rintro ⟨slot, -, stays, cached, located, valid, named⟩
    exact ⟨slot, cached, located, valid, named, stays⟩
  · rintro ⟨slot, cached, located, valid, named, stays⟩
    exact ⟨slot, (List.getElem?_eq_some_iff.mp located).1, stays, cached, located, valid, named⟩

section Faulted

variable {before after : Kernel} {thread : Thread} {action : Action} {addr : BitVec 32}
  {size : Nat} {file : Executable} {slot number : Nat} {origin : Origin}

/-- The handler replaces the slot that second chance picks. -/
theorem Faulted.replaces {page : PageRef}
    (faulted : Faulted before after page file slot number origin) :
    before.replaces = some slot := by
  obtain ⟨searched, cached, search, -⟩ := faulted.tlb
  simp [Kernel.replaces, search]

/-- The handler evicts the page that second chance picks, when it has to evict one. -/
theorem Faulted.evicts (sound : Sound before) (running : before.currentThread = some thread)
    (reference : action.reference = some (addr, size)) (missed : Missed before addr size)
    (faulted : Faulted before after ⟨thread, virtualPageNumber addr⟩ file slot number origin) :
    before.evicts action = origin.victim := by
  obtain ⟨seen, shown, reason⟩ := faulted.justified
  obtain ⟨entry, found, rfl⟩ := InvertedTable.view_eq_some.mp shown
  rw [← clearUse_syncAll] at reason
  have selected := faulted.selected
  simp only [Kernel.evicts, missed.faultingEntry running reference, Kernel.entry_updataPageTables,
    found, Option.map_some]
  cases origin with
  | resident =>
    have present : (syncAll before.tlb entry).physicalPage = number := reason
    rw [if_neg (fun both => natCast_ne_noPhysicalPage number (present.symm.trans both.1))]
    rfl
  | free =>
    obtain ⟨-, unstored, clear, -⟩ := reason
    have unstored' : fromStore (syncAll before.tlb entry) = false := unstored
    have some_ : before.physicalPageMap.find ≠ none := by
      intro full
      have set := BitMap.find_eq_none.mp full number (by rw [sound.bits]; exact faulted.inside)
      simp [clear] at set
    simp [unstored', some_, Origin.victim]
  | evicted victim =>
    obtain ⟨absent, -, full⟩ := reason
    have absent' : (syncAll before.tlb entry).physicalPage = noPhysicalPage := absent
    rw [if_pos ⟨absent', .inr (by simp [full])⟩]
    exact selected victim rfl
  | swapped victim contents =>
    obtain ⟨absent, stored, -⟩ := reason
    have absent' : (syncAll before.tlb entry).physicalPage = noPhysicalPage := absent
    have stored' : fromStore (syncAll before.tlb entry) = true := stored
    rw [if_pos ⟨absent', .inl stored'⟩]
    exact selected victim rfl

/-- A fault keeps the TLB coherent exactly when the victim is not left behind in it. -/
theorem Coherent.faulted_iff (coherent : Coherent before) (sound : Sound before)
    (running : before.currentThread = some thread) (missed : Missed before addr size)
    (faulted : Faulted before after ⟨thread, virtualPageNumber addr⟩ file slot number origin) :
    Coherent after ↔ ∀ victim, origin.victim = some victim → victim.thread = thread →
      before.keepsCached victim.page = false := by
  have current : after.currentThread = some thread := by rw [faulted.currentThread, running]
  have replaced := faulted.replaces
  constructor
  · intro still victim lost own
    rw [← Bool.not_eq_true, Kernel.keepsCached_iff]
    rintro ⟨place, cached, located, valid, named, stays⟩
    -- The stale slot survives, but its page has no frame any more.
    have elsewhere : place ≠ slot := by
      rintro rfl
      exact stays replaced
    obtain ⟨searched, loaded, search, tlb, -⟩ := faulted.tlb
    obtain ⟨same, -⟩ := secondChanceTlb_spec search
    have kept : ∃ other, after.tlb[place]? = some other ∧ clearUse other = clearUse cached := by
      have slots := congrArg (fun entries => entries[place]?) same
      simp only [List.getElem?_map, located, Option.map_some, Option.map_eq_some_iff] at slots
      rwa [tlb, List.getElem?_set_ne (Ne.symm elsewhere)]
    obtain ⟨other, there, alike⟩ := kept
    obtain ⟨names, -, valids, -⟩ := clearUse_inj alike
    obtain ⟨page, called, frame, present⟩ :=
      still.agrees thread place other current there (by rw [valids, valid])
    have pages : page = victim.page := by
      rw [names, named] at called
      omega
    have ref : (⟨thread, page⟩ : PageRef) = victim := by
      cases victim
      simp_all
    obtain ⟨differ, -⟩ := faulted.ousted victim lost
    rw [ref, faulted.frameOf, if_neg differ, if_pos lost, Option.some.injEq] at frame
    exact present frame.symm
  · intro spared
    -- A slot is the new one or an old one, and no old one is for the page or the victim.
    have old : ∀ {place cached}, after.tlb[place]? = some cached → cached.valid = true →
        place ≠ slot → ∃ earlier, before.tlb[place]? = some earlier ∧
          clearUse earlier = clearUse cached ∧ earlier.valid = true ∧
          cached.virtualPage ≠ virtualPageNumber addr := by
      intro place cached located valid elsewhere
      rcases faulted.slots located with ⟨here, -⟩ | ⟨-, earlier, found, same⟩
      · exact absurd here elsewhere
      · obtain ⟨names, -, valids, -⟩ := clearUse_inj same
        have valid' : earlier.valid = true := by rw [valids, valid]
        refine ⟨earlier, found, same, valid', ?_⟩
        rw [← names]
        exact missed.missed earlier (List.mem_of_getElem? found) valid'
    refine ⟨?_, ?_⟩
    · intro other place cached alive located valid
      obtain rfl : thread = other := by simpa [current] using alive
      by_cases here : place = slot
      · obtain ⟨named, framed, -⟩ := faulted.new_slot sound (here ▸ located)
        refine ⟨virtualPageNumber addr, named, ?_, ?_⟩
        · rw [faulted.frameOf, if_pos rfl, framed]
        · rw [framed]
          exact natCast_ne_noPhysicalPage number
      · obtain ⟨earlier, found, same, valid', differ⟩ := old located valid here
        obtain ⟨names, frames, -⟩ := clearUse_inj same
        obtain ⟨page, called, frame, present⟩ :=
          coherent.agrees thread place earlier running found valid'
        rw [names] at called
        rw [frames] at frame present
        refine ⟨page, called, ?_, present⟩
        have apart : (⟨thread, page⟩ : PageRef) ≠ ⟨thread, virtualPageNumber addr⟩ := by
          simp only [ne_eq, PageRef.mk.injEq, true_and]
          rintro rfl
          exact differ called
        have safe : origin.victim ≠ some ⟨thread, page⟩ := by
          intro lost
          have out := spared ⟨thread, page⟩ lost rfl
          rw [← Bool.not_eq_true, Kernel.keepsCached_iff] at out
          refine out ⟨place, earlier, found, valid', by rw [names, called], ?_⟩
          rw [replaced, ne_eq, Option.some.injEq]
          exact Ne.symm here
        rw [faulted.frameOf, if_neg apart, if_neg safe, frame]
    · intro other first second one two alive left right valid valid' same
      by_cases here : first = slot <;> by_cases there : second = slot
      · rw [here, there]
      · obtain ⟨named, -⟩ := faulted.new_slot sound (here ▸ left)
        obtain ⟨-, -, -, -, differ⟩ := old right valid' there
        exact absurd (same ▸ named) differ
      · obtain ⟨named, -⟩ := faulted.new_slot sound (there ▸ right)
        obtain ⟨-, -, -, -, differ⟩ := old left valid here
        exact absurd (same ▸ named) differ
      · obtain ⟨earlier, found, alike, ok, -⟩ := old left valid here
        obtain ⟨earlier', found', alike', ok', -⟩ := old right valid' there
        obtain ⟨names, -⟩ := clearUse_inj alike
        obtain ⟨names', -⟩ := clearUse_inj alike'
        exact coherent.once thread first second earlier earlier' running found found' ok ok'
          (by rw [names, names', same])

end Faulted

/-- A TLB without valid slots is coherent. -/
theorem Coherent.of_flushed {kernel : Kernel} {tlb : List TranslationEntry}
    (empty : kernel.tlb = flushed tlb) : Coherent kernel := by
  have invalid : ∀ {slot : Nat} {cached}, kernel.tlb[slot]? = some cached →
      cached.valid = false := by
    intro slot cached located
    rw [empty] at located
    exact valid_of_mem_flushed (List.mem_of_getElem? located)
  refine ⟨?_, ?_⟩
  · intro thread slot cached _ located valid
    simp [invalid located] at valid
  · intro thread first second one two _ left _ valid
    simp [invalid left] at valid

/-- References that hit keep the TLB coherent, as does whatever keeps the running thread's pages. -/
theorem Coherent.touched {before after : Kernel} (coherent : Coherent before) (slot : Nat)
    (writing : Bool) (tlb : after.tlb = before.tlb.modify slot (·.touch writing))
    (tables : after.invertedTable = before.invertedTable)
    (running : after.currentThread = before.currentThread) : Coherent after := by
  refine ⟨?_, ?_⟩
  · intro thread place cached alive located valid
    rw [tlb] at located
    obtain ⟨old, found, names, frames, valids, -⟩ := slot_touch located
    rw [names, frames, tables]
    exact coherent.agrees thread place old (running ▸ alive) found (by rw [← valids, valid])
  · intro thread first second one two alive left right valid valid' same
    rw [tlb] at left right
    obtain ⟨old, found, names, -, valids, -⟩ := slot_touch left
    obtain ⟨old', found', names', -, valids', -⟩ := slot_touch right
    exact coherent.once thread first second old old' (running ▸ alive) found found'
      (by rw [← valids, valid]) (by rw [← valids', valid']) (by rw [← names, ← names', same])

/-- A new thread does not disturb the pages of the running one. -/
theorem Coherent.forked {before after : Kernel} {thread : Thread} {count address : Nat}
    {file : Executable} (coherent : Coherent before)
    (created : Created before.invertedTable after.invertedTable thread count address file id)
    (tlb : after.tlb = before.tlb) (running : after.currentThread = before.currentThread) :
    Coherent after := by
  refine ⟨?_, ?_⟩
  · intro other slot cached alive located valid
    obtain ⟨page, named, frame, present⟩ :=
      coherent.agrees other slot cached (running ▸ alive) (tlb ▸ located) valid
    exact ⟨page, named, (created.frameOf .id present).mpr frame, present⟩
  · rw [tlb, running]
    exact coherent.once

/-- A coherent TLB stays coherent in a step exactly when the step evicts no page cached in it. -/
theorem Coherent.stepped {before after : Kernel} {action : Action} (coherent : Coherent before)
    (sound : Sound before) (stepped : Stepped before action after) :
    Coherent after ↔ VictimUncached before action := by
  have silent : ∀ {action}, before.faultingEntry action = none → VictimUncached before action := by
    intro action none
    simp [VictimUncached, Kernel.evictsCached, Kernel.evicts, none]
  cases stepped with
  | exec magic created tlb running storage =>
    exact iff_of_true (.of_flushed tlb) (silent (before.faultingEntry_silent rfl))
  | fork father filed pages created tlb running storage =>
    exact iff_of_true (coherent.forked created tlb running) (silent (before.faultingEntry_silent rfl))
  | exit running destroyed idle =>
    exact iff_of_true ⟨by simp [idle], by simp [idle]⟩ (silent (before.faultingEntry_silent rfl))
  | switchTo member views keys homes tlb running storage =>
    exact iff_of_true (.of_flushed tlb) (silent (before.faultingEntry_silent rfl))
  | load running hit decoded =>
    exact iff_of_true (coherent.touched _ _ rfl rfl rfl) (silent (hit.faultingEntry rfl))
  | store running hit encoded =>
    exact iff_of_true (coherent.touched _ _ rfl rfl rfl) (silent (hit.faultingEntry rfl))
  | fault running reference missed located faulted =>
    rw [coherent.faulted_iff sound running missed faulted]
    simp only [VictimUncached, Kernel.evictsCached,
      faulted.evicts sound running reference missed, running, ← Bool.not_eq_true,
      Option.any_eq_true, Bool.and_eq_true, beq_iff_eq, Option.some.injEq, not_exists, not_and]
    exact forall_congr' fun victim => imp_congr_right fun _ =>
      imp_congr_left eq_comm

/-- The TLB starts without valid slots. -/
theorem Boot.coherent {kernel : Kernel} (boot : Boot kernel) : Coherent kernel :=
  ⟨by simp [boot.idle], by simp [boot.idle]⟩

/-- A page that a step evicts from the running thread has no frame afterwards. -/
theorem Stepped.frameOf_evicts {before after : Kernel} {action : Action} (sound : Sound before)
    (stepped : Stepped before action after) {victim : PageRef}
    (lost : before.evicts action = some victim) :
    after.invertedTable.frameOf victim = some noPhysicalPage ∧
      after.currentThread = before.currentThread := by
  have loud : before.faultingEntry action ≠ none := by
    intro none
    simp [Kernel.evicts, none] at lost
  cases stepped with
  | fault running reference missed located faulted =>
    rw [faulted.evicts sound running reference missed] at lost
    obtain ⟨differ, -⟩ := faulted.ousted victim lost
    exact ⟨by rw [faulted.frameOf, if_neg differ, if_pos lost], faulted.currentThread⟩
  | load running hit decoded => exact absurd (hit.faultingEntry rfl) loud
  | store running hit encoded => exact absurd (hit.faultingEntry rfl) loud
  | exec | fork | exit | switchTo => exact absurd (before.faultingEntry_silent rfl) loud

/--
The TLB agrees with the running thread's page table while no cached page is evicted.

The first step that evicts a page which another slot still holds breaks this, and in every step that
does not, no valid slot for the victim survives.
-/
theorem coherent_iff_victimUncached {kernel : Kernel}
    (reached : Runs.Reachable step Boot VictimUncached kernel) :
    Coherent kernel ∧ ∀ action after, step kernel action = .ok after →
      (Coherent after ↔ VictimUncached kernel action) ∧
      (VictimUncached kernel action → ∀ victim, kernel.evicts action = some victim →
        kernel.currentThread = some victim.thread → ∀ (slot : Nat) (cached : TranslationEntry),
        after.tlb[slot]? = some cached → cached.valid = true →
        cached.virtualPage ≠ victim.page) := by
  have both : Sound kernel ∧ Coherent kernel := by
    refine reached.invariant (fun kernel => Sound kernel ∧ Coherent kernel)
      (fun _ boot => ⟨boot.sound, boot.coherent⟩) ?_
    rintro before action after ⟨sound, coherent⟩ allowed done
    obtain ⟨stepped, sound'⟩ := sound.step done
    exact ⟨sound', (coherent.stepped sound stepped).mpr allowed⟩
  obtain ⟨sound, coherent⟩ := both
  refine ⟨coherent, ?_⟩
  intro action after done
  obtain ⟨stepped, -⟩ := sound.step done
  have exact_ := coherent.stepped sound stepped
  refine ⟨exact_, ?_⟩
  intro allowed victim lost own slot cached located valid named
  -- A surviving slot would give the victim a frame, and it has none.
  obtain ⟨gone, current⟩ := stepped.frameOf_evicts sound lost
  obtain ⟨page, called, frame, present⟩ :=
    (exact_.mpr allowed).agrees victim.thread slot cached (by rw [current, own]) located valid
  obtain rfl : page = victim.page := by omega
  rw [gone, Option.some.injEq] at frame
  exact present frame.symm

/-- One page more than there are frames evicts page 0, which is no longer in the TLB. -/
theorem coherent_after_pageOut :
    ∃ kernel, Runs.run step firstKernel (fillFrames ++ visit 32) = .ok kernel ∧
      kernel.invertedTable.frameOf ⟨1, 0⟩ = some noPhysicalPage ∧ Coherent kernel := by
  obtain ⟨kernel, ran, seen⟩ := Runs.exists_of_runsTo
    (show Runs.runsTo step firstKernel (fillFrames ++ visit 32) (fun kernel =>
      kernel.invertedTable.frameOf ⟨1, 0⟩ == some noPhysicalPage) = true by decide +kernel)
  -- The victim of the last fault had left the TLB long before.
  have guarded : Runs.Guarded step VictimUncached firstKernel (fillFrames ++ visit 32) := by
    decide +kernel
  exact ⟨kernel, ran, by simpa using seen, (coherent_iff_victimUncached
    (Runs.Reachable.extend (.start firstKernel_boot) guarded ran)).1⟩

/-- Page 0 is brought back into the TLB, and the next page evicts it from memory only. -/
theorem not_coherent_after_eviction :
    Boot firstKernel ∧ ∃ kernel,
      Runs.run step firstKernel (fillFrames ++ visit 0 ++ visit 32) = .ok kernel ∧
        ¬ Coherent kernel := by
  refine ⟨firstKernel_boot, ?_⟩
  obtain ⟨kernel, ran, seen⟩ := Runs.exists_of_runsTo
    (show Runs.runsTo step firstKernel (fillFrames ++ visit 0 ++ visit 32) (fun kernel =>
      kernel.currentThread == some 1 && kernel.tlb[0]? == some ⟨0, 0, true, false, true, false⟩ &&
        kernel.invertedTable.frameOf ⟨1, 0⟩ == some noPhysicalPage) = true by decide +kernel)
  simp only [Bool.and_eq_true, beq_iff_eq] at seen
  obtain ⟨⟨current, stale⟩, gone⟩ := seen
  refine ⟨kernel, ran, ?_⟩
  intro coherent
  obtain ⟨page, called, frame, present⟩ := coherent.agrees 1 0 _ current stale rfl
  obtain rfl : page = 0 := by
    simp only at called
    omega
  rw [gone, Option.some.injEq] at frame
  exact present frame.symm

end Nachos.Vm
