import Mathlib.Data.List.Induction
import Nachos.Vm.Ownership

/-! `updataPageTables`: when the TLB writes back no more than what its valid entries know. -/

namespace Nachos.Vm

/-- The TLB entries that name a frame, in the order of their slots. -/
def naming (tlb : List TranslationEntry) (physicalPage : Int) : List TranslationEntry :=
  tlb.filter fun cached => cached.physicalPage = physicalPage

/-- The page tables when the outer loop of `updataPageTables` reaches a slot. -/
def Kernel.beforeSlot (kernel : Kernel) (slot : Nat) : InvertedTable :=
  (kernel.tlb.take slot).foldl syncTables kernel.invertedTable

/-- No dirty bit is lost, and entries that are not valid change nothing. -/
structure WritesBack (kernel : Kernel) : Prop where
  dirty : ∀ ref entry, kernel.invertedTable.entry ref = some entry →
    (entry.dirty = true ∨ ∃ cached ∈ kernel.tlb, cached.valid = true ∧
      cached.physicalPage = entry.physicalPage ∧ cached.dirty = true) →
    ∃ after, kernel.updataPageTables.invertedTable.entry ref = some after ∧ after.dirty = true
  silent : ∀ slot cached, kernel.tlb[slot]? = some cached → cached.valid = false →
    ∀ ref, (syncTables (kernel.beforeSlot slot) cached).entry ref =
      (kernel.beforeSlot slot).entry ref

/-- How the slots that name the frame of a page-table entry have to be for that entry. -/
structure Ordered (tlb : List TranslationEntry) (entry : TranslationEntry) : Prop where
  /-- A slot that is not valid has the bits of the entry. -/
  stale : ∀ cached ∈ naming tlb entry.physicalPage, cached.valid = false →
    cached.dirty = entry.dirty ∧ entry.valid = false
  /-- The slots that are not valid come first. -/
  first : (naming tlb entry.physicalPage).Pairwise fun earlier later =>
    later.valid = false → earlier.valid = false
  /-- The last slot knows of a store if it is valid, and the entry or any valid slot does. -/
  last : ∀ cached ∈ (naming tlb entry.physicalPage).getLast?, cached.valid = true →
    (entry.dirty = true ∨ ∃ other ∈ naming tlb entry.physicalPage, other.valid = true ∧
      other.dirty = true) → cached.dirty = true

variable {tlb : List TranslationEntry} {entry : TranslationEntry}

/-- An entry is left alone by the slots that are not valid, each in its turn. -/
def Unmoved (tlb : List TranslationEntry) (entry : TranslationEntry) : Prop :=
  ∀ slot cached, tlb[slot]? = some cached → cached.valid = false →
    syncEntry (syncAll (tlb.take slot) entry) cached = syncAll (tlb.take slot) entry

/-- The first slot is left behind. -/
theorem unmoved_cons {cached : TranslationEntry} {rest : List TranslationEntry} :
    Unmoved (cached :: rest) entry ↔
      (cached.valid = false → syncEntry entry cached = entry) ∧
        Unmoved rest (syncEntry entry cached) := by
  constructor
  · intro unmoved
    exact ⟨unmoved 0 cached rfl, fun slot other located stale =>
      unmoved (slot + 1) other located stale⟩
  · rintro ⟨head, later⟩ slot other located stale
    -- The first slot meets the entry itself, a later one meets it behind the first.
    cases slot with
    | zero =>
      obtain rfl : cached = other := Option.some.inj located
      exact head stale
    | succ slot => exact later slot other located stale

/-- What a slot writes into an entry that has its frame is already there. -/
theorem syncEntry_eq_self {cached : TranslationEntry}
    (named : cached.physicalPage = entry.physicalPage) :
    syncEntry entry cached = entry ↔ entry.dirty = cached.dirty ∧ entry.valid = cached.valid := by
  -- Only the dirty bit and the valid bit are written, so only they can differ.
  obtain ⟨virtualPage, physicalPage, valid, readOnly, use, dirty⟩ := entry
  simp only at named
  simp only [syncEntry, named, if_true, TranslationEntry.mk.injEq, true_and]
  grind

/-- Slots leave an entry alone exactly if those that are not valid come first and agree with it. -/
theorem unmoved_iff : Unmoved tlb entry ↔
    (∀ cached ∈ naming tlb entry.physicalPage, cached.valid = false →
      cached.dirty = entry.dirty ∧ entry.valid = false) ∧
    (naming tlb entry.physicalPage).Pairwise fun earlier later =>
      later.valid = false → earlier.valid = false := by
  -- Each slot in turn either does not name the frame, is stale, or sets the bits of the entry.
  induction tlb generalizing entry with
  | nil => simp [Unmoved, naming]
  | cons cached rest ih =>
    rw [unmoved_cons]
    by_cases named : cached.physicalPage = entry.physicalPage
    · have listed : naming (cached :: rest) entry.physicalPage =
          cached :: naming rest entry.physicalPage := by simp [naming, named]
      have page : (syncEntry entry cached).physicalPage = entry.physicalPage := by
        unfold syncEntry
        split <;> rfl
      rw [listed, List.pairwise_cons, ih, page]
      simp only [List.mem_cons, forall_eq_or_imp]
      cases valid : cached.valid with
      | false =>
        -- A stale slot has to agree with the entry, and then leaves it to the others unchanged.
        rw [syncEntry_eq_self named, valid]
        constructor
        · rintro ⟨agrees, stale, first⟩
          obtain ⟨dirty, invalid⟩ := agrees rfl
          rw [(syncEntry_eq_self named).mpr ⟨dirty, invalid.trans valid.symm⟩] at stale
          exact ⟨⟨fun _ => ⟨dirty.symm, invalid⟩, stale⟩, fun _ _ _ => rfl, first⟩
        · rintro ⟨⟨agrees, stale⟩, -, first⟩
          obtain ⟨dirty, invalid⟩ := agrees rfl
          rw [(syncEntry_eq_self named).mpr ⟨dirty.symm, invalid.trans valid.symm⟩]
          exact ⟨fun _ => ⟨dirty.symm, invalid⟩, stale, first⟩
      | true =>
        -- Behind a valid slot the entry is valid, so no stale slot may follow.
        have made : (syncEntry entry cached).valid = true := by
          rw [syncEntry, if_pos named.symm, valid]
        constructor
        · rintro ⟨-, stale, first⟩
          have none (other : TranslationEntry) (member : other ∈ naming rest entry.physicalPage)
              (invalid : other.valid = false) : False := by
            have absurd := (stale other member invalid).2
            simp [made] at absurd
          exact ⟨⟨by simp, fun other member invalid => (none other member invalid).elim⟩,
            fun other member invalid => (none other member invalid).elim, first⟩
        · rintro ⟨-, valids, first⟩
          exact ⟨by simp, fun other member invalid => by simpa using valids other member invalid,
            first⟩
    · -- A slot of another frame is neither listed nor does it write.
      have listed : naming (cached :: rest) entry.physicalPage =
          naming rest entry.physicalPage := by simp [naming, named]
      have same : syncEntry entry cached = entry := if_neg fun equal => named equal.symm
      rw [listed, same, ih]
      simp

/-- The last slot that names the frame of an entry decides. -/
theorem syncAll_getLast (tlb : List TranslationEntry) (entry : TranslationEntry) :
    syncAll tlb entry = match (naming tlb entry.physicalPage).getLast? with
      | none => entry
      | some cached => { entry with dirty := cached.dirty, valid := cached.valid } := by
  induction tlb using List.reverseRecOn with
  -- Without a slot the entry is its own.
  | nil => rfl
  | append_singleton rest cached ih =>
    -- A frame is never written, so the last slot still finds the entry by it.
    have page := syncAll_physicalPage rest entry
    have step : syncAll (rest ++ [cached]) entry = syncEntry (syncAll rest entry) cached := by
      simp [syncAll]
    by_cases named : cached.physicalPage = entry.physicalPage
    · have listed : naming (rest ++ [cached]) entry.physicalPage =
          naming rest entry.physicalPage ++ [cached] := by simp [naming, named]
      obtain ⟨dirty, valid, same⟩ := syncAll_eq rest entry
      rw [step, listed, List.getLast?_concat, syncEntry, if_pos (page.trans named.symm), same]
    · have listed : naming (rest ++ [cached]) entry.physicalPage =
          naming rest entry.physicalPage := by simp [naming, named]
      rw [step, listed, ← ih, syncEntry, if_neg fun equal => named (equal.symm.trans page)]

/-- The page tables at a slot's turn, one entry at a time. -/
theorem Kernel.entry_beforeSlot (kernel : Kernel) (slot : Nat) (ref : PageRef) :
    (kernel.beforeSlot slot).entry ref =
      (kernel.invertedTable.entry ref).map (syncAll (kernel.tlb.take slot)) :=
  { kernel with tlb := kernel.tlb.take slot }.entry_updataPageTables ref

/-- One turn of the outer loop, one entry at a time. -/
theorem entry_syncTables (table : InvertedTable) (cached : TranslationEntry) (ref : PageRef) :
    (syncTables table cached).entry ref = (table.entry ref).map (syncEntry · cached) := by
  simp only [InvertedTable.entry, syncTables, Map.get?_mapObjects]
  cases found : table.get? ref.thread with
  | none => rfl
  | some space => simp

/-- Slots that are not valid change nothing exactly if they leave every entry alone. -/
theorem Kernel.silent_iff_unmoved (kernel : Kernel) :
    (∀ slot cached, kernel.tlb[slot]? = some cached → cached.valid = false →
      ∀ ref, (syncTables (kernel.beforeSlot slot) cached).entry ref =
        (kernel.beforeSlot slot).entry ref) ↔
    ∀ ref entry, kernel.invertedTable.entry ref = some entry → Unmoved kernel.tlb entry := by
  constructor
  · -- At its turn a stale slot meets what the slots before it made of the entry.
    intro silent ref entry located slot cached there stale
    have same := silent slot cached there stale ref
    rw [entry_syncTables, kernel.entry_beforeSlot, located] at same
    exact Option.some.inj same
  · intro unmoved slot cached there stale ref
    rw [entry_syncTables, kernel.entry_beforeSlot]
    -- A pointer to no entry finds none on both sides.
    cases located : kernel.invertedTable.entry ref with
    | none => rfl
    | some entry => exact congrArg some (unmoved ref entry located slot cached there stale)

/--
`updataPageTables` keeps dirty bits, and ignores entries that are not valid, exactly if the slots
are in order for every page-table entry.
-/
theorem writesBack_iff_ordered (kernel : Kernel) :
    WritesBack kernel ↔ ∀ ref entry, kernel.invertedTable.entry ref = some entry →
      Ordered kernel.tlb entry := by
  have member (entry cached : TranslationEntry) :
      cached ∈ naming kernel.tlb entry.physicalPage ↔
        cached ∈ kernel.tlb ∧ cached.physicalPage = entry.physicalPage := by simp [naming]
  constructor
  · -- Silence gives the first two conditions, and a store that is known gives the third.
    intro writesBack ref entry located
    obtain ⟨stale, first⟩ := unmoved_iff.mp
      (kernel.silent_iff_unmoved.mp writesBack.silent ref entry located)
    refine ⟨stale, first, fun cached last _ known => ?_⟩
    obtain ⟨after, written, dirty⟩ := writesBack.dirty ref entry located (known.imp_right
      fun ⟨other, named, valid, set⟩ =>
        ⟨other, ((member entry other).mp named).1, valid, ((member entry other).mp named).2, set⟩)
    rw [kernel.entry_updataPageTables, located, Option.map_some, Option.some.injEq,
      syncAll_getLast, Option.mem_def.mp last] at written
    rw [← written] at dirty
    exact dirty
  · -- In order, the last slot decides, and what it writes is no less than what was known.
    intro ordered
    refine ⟨fun ref entry located known => ?_, kernel.silent_iff_unmoved.mpr
      fun ref entry located => unmoved_iff.mpr
        ⟨(ordered ref entry located).stale, (ordered ref entry located).first⟩⟩
    refine ⟨syncAll kernel.tlb entry, by rw [kernel.entry_updataPageTables, located]; rfl, ?_⟩
    obtain ⟨stale, first, last⟩ := ordered ref entry located
    rw [syncAll_getLast]
    cases ends : (naming kernel.tlb entry.physicalPage).getLast? with
    | none =>
      -- No slot names the frame, so the entry keeps its own dirty bit.
      have nobody := List.getLast?_eq_none_iff.mp ends
      rcases known with dirty | ⟨cached, there, -, named, -⟩
      · exact dirty
      · have listed := (member entry cached).mpr ⟨there, named⟩
        simp [nobody] at listed
    | some cached =>
      have listed := List.mem_of_getLast? ends
      cases valid : cached.valid with
      | true =>
        exact last cached ends valid (known.imp_right fun ⟨other, there, also, named, set⟩ =>
          ⟨other, (member entry other).mpr ⟨there, named⟩, also, set⟩)
      | false =>
        -- Behind a slot that is not valid there is no valid one, so the entry itself was dirty.
        have agrees := (stale cached listed valid).1
        rcases known with dirty | ⟨other, there, also, named, -⟩
        · exact agrees.trans dirty
        · obtain ⟨front, whole⟩ := List.getLast?_eq_some_iff.mp ends
          have either := (member entry other).mpr ⟨there, named⟩
          rw [whole] at first either
          rcases List.mem_append.mp either with before | same
          · have invalid := (List.pairwise_append.mp first).2.2 other before cached
              List.mem_cons_self valid
            simp [also] at invalid
          · obtain rfl := List.mem_singleton.mp same
            simp [also] at valid

/-- Slot 0 holds a modified page, slot 1 an old copy of its entry that is no longer valid. -/
def staleKernel : Kernel := { firstKernel with
  tlb := [⟨0, 5, true, false, true, true⟩, ⟨0, 5, false, false, true, false⟩,
    ⟨0, 0, false, false, false, false⟩, ⟨0, 0, false, false, false, false⟩]
  invertedTable := Map.empty.insert 1 ⟨[⟨0, 5, true, false, true, false⟩], 1000, wideProgram⟩ }

/-- The old copy wins: the page is written back as one that was never modified. -/
theorem not_writesBack_stale :
    staleKernel.invertedTable.entry ⟨1, 0⟩ = some ⟨0, 5, true, false, true, false⟩ ∧
      staleKernel.updataPageTables.invertedTable.entry ⟨1, 0⟩ =
        some ⟨0, 5, false, false, true, false⟩ ∧
      ¬ WritesBack staleKernel := by
  refine ⟨rfl, rfl, fun writesBack => ?_⟩
  obtain ⟨after, written, dirty⟩ := writesBack.dirty ⟨1, 0⟩ _ rfl
    (.inr ⟨⟨0, 5, true, false, true, true⟩, List.mem_cons_self, rfl, rfl, rfl⟩)
  obtain rfl := Option.some.inj written
  cases dirty

end Nachos.Vm
